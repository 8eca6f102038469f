import Formulary.Proofs.Number.Order

/-!
# The order of doubles with infinities

A double that is a number denotes a real number or one of two infinities (`toEReal`), and is
compared as what it denotes (`lt_iff_toEReal`, `le_iff_toEReal`). So the order of doubles is that of
a line.
-/

namespace Formulary.Number

open Float.Model.UnpackedFloat
open Float.Model (UnpackedFloat Format)

variable {x y z : Float} {s : Sign}

/-- What a double denotes, an infinite one included. -/
noncomputable def toEReal (x : Float) : EReal :=
  match x.toModel.unpack with
  | .infinity .positive => ⊤
  | .infinity .negative => ⊥
  | _ => toReal x

/-- A finite double denotes the same number among the extended ones. -/
lemma toEReal_of_isFinite (hx : x.isFinite) : toEReal x = toReal x := by
  have hx : x.toModel.unpack.isFinite = true := hx
  unfold toEReal
  cases hu : x.toModel.unpack with
  | infinity s =>
    rw [hu] at hx
    cases hx
  | _ => rfl

/-- A double that is a number is infinite or finite. -/
lemma infinite_or_isFinite (hx : ¬ x.isNaN) :
    (∃ s, x.toModel.unpack = .infinity s) ∨ x.isFinite := by
  cases hu : x.toModel.unpack with
  | notANumber => exact absurd hu (unpack_ne_notANumber hx)
  | infinity s => exact .inl ⟨s, rfl⟩
  | zero s | finite s m e hm =>
    refine .inr ?_
    show x.toModel.unpack.isFinite = true
    rw [hu]
    rfl

/-- An infinity is beyond all finite doubles on its side. -/
lemma compare_infinity (hx : x.isFinite) :
    (UnpackedFloat.infinity s).compare x.toModel.unpack =
        some (match s with | .positive => .gt | .negative => .lt) ∧
      x.toModel.unpack.compare (.infinity s) =
        some (match s with | .positive => .lt | .negative => .gt) := by
  have hx : x.toModel.unpack.isFinite = true := hx
  cases hu : x.toModel.unpack with
  | notANumber | infinity t =>
    rw [hu] at hx
    cases hx
  | zero t | finite t m e hm => cases s <;> cases t <;> exact ⟨rfl, rfl⟩

/-- Doubles that are numbers are compared as what they denote. -/
lemma compare_eq_toEReal (hx : ¬ x.isNaN) (hy : ¬ y.isNaN) :
    x.toModel.unpack.compare y.toModel.unpack = some (cmp (toEReal x) (toEReal y)) := by
  obtain ⟨s, hu⟩ | hfx := infinite_or_isFinite hx
  · obtain ⟨t, hv⟩ | hfy := infinite_or_isFinite hy
    · simp only [toEReal, hu, hv]
      cases s <;> cases t <;> simp [UnpackedFloat.compare, cmp, cmpUsing] <;> rfl
    · rw [hu, (compare_infinity hfy).1, toEReal_of_isFinite hfy]
      simp only [toEReal, hu]
      cases s
      · rw [(EReal.bot_lt_coe _).cmp_eq_lt]
      · rw [(EReal.coe_lt_top _).cmp_eq_gt]
  · obtain ⟨t, hv⟩ | hfy := infinite_or_isFinite hy
    · rw [hv, (compare_infinity hfx).2, toEReal_of_isFinite hfx]
      simp only [toEReal, hv]
      cases t
      · rw [(EReal.bot_lt_coe _).cmp_eq_gt]
      · rw [(EReal.coe_lt_top _).cmp_eq_lt]
    · rw [toEReal_of_isFinite hfx, toEReal_of_isFinite hfy, EReal.coe_strictMono.cmp_map_eq]
      exact (parts hfx).compare_eq (parts hfy)

/-- Doubles are less as the extended numbers are that they denote. -/
theorem lt_iff_toEReal (hx : ¬ x.isNaN) (hy : ¬ y.isNaN) : x < y ↔ toEReal x < toEReal y := by
  have h := compare_eq_toEReal hx hy
  rw [← cmp_eq_lt_iff]
  show decide ((x.toModel.unpack.compare y.toModel.unpack == some .lt) = true) = true ↔ _
  simp [h]

/-- Doubles are at most as large as the extended numbers are that they denote. -/
theorem le_iff_toEReal (hx : ¬ x.isNaN) (hy : ¬ y.isNaN) : x ≤ y ↔ toEReal x ≤ toEReal y := by
  have h := compare_eq_toEReal hx hy
  rw [← not_lt, ← cmp_eq_gt_iff]
  show decide ((x.toModel.unpack.compare y.toModel.unpack).any (·.isLE) = true) = true ↔ _
  rw [h]
  cases cmp (toEReal x) (toEReal y) <;> simp

/-- What something is less than is a number. -/
lemma not_isNaN_of_gt (h : x < y) : ¬ y.isNaN := by
  intro hy
  have hlt : decide ((x.toModel.unpack.compare y.toModel.unpack == some .lt) = true) = true := h
  have hy : y.toModel.unpack.isNaN = true := hy
  cases hv : y.toModel.unpack with
  | notANumber =>
    rw [hv] at hlt
    cases hu : x.toModel.unpack with
    | infinity s => rw [hu] at hlt; cases s <;> cases hlt
    | _ => rw [hu] at hlt; cases hlt
  | _ => rw [hv] at hy; cases hy

/-- The order of doubles is transitive. -/
lemma double_lt_trans (hxy : x < y) (hyz : y < z) : x < z := by
  have hx := not_isNaN_of_lt hxy
  have hy := not_isNaN_of_lt hyz
  have hz := not_isNaN_of_gt hyz
  rw [lt_iff_toEReal hx hz]
  exact ((lt_iff_toEReal hx hy).1 hxy).trans ((lt_iff_toEReal hy hz).1 hyz)

/-- Of two doubles that are numbers, one that is not less than the other is at least as great. -/
lemma double_le_of_not_lt (hx : ¬ x.isNaN) (hy : ¬ y.isNaN) (h : ¬ x < y) : y ≤ x := by
  rw [lt_iff_toEReal hx hy, not_lt] at h
  exact (le_iff_toEReal hy hx).2 h

end Formulary.Number
