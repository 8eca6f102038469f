import Formulary.Display
import Formulary.Proofs.Expression.Boundary
import Formulary.Proofs.Formula.Literal
import Formulary.Proofs.Number.Decimal

/-!
# Decimal numerals

The texts of displayed values are numerals: in fixed form (`IsFixedForm`), where the zeros at the end
of the places are left out, or in scientific form (`IsScientificForm`). Read as an unsigned decimal they
denote what was written (`isFixedForm_dropTrailing`, `isScientificForm_scientificText`).
-/

namespace Formulary.Number

open Formulary.Text Formulary.Token Formulary.Formula

/-- The number that a text denotes, if the text is a decimal with an optional sign in front. -/
def denoted? (s : List Char) : Option ℚ :=
  match takeDecimal? (takeSign s).2 with
  | some (n, e, []) => some (signed (takeSign s).1 (n * 10 ^ e))
  | _ => none

/--
Digits, with a point and at most some more digits behind it; these are not zero at the end, and
without any there is no point.
-/
inductive IsFixedForm (most : ℕ) : List Char → Prop where
  | whole {ds : List Char} :
    ds ≠ [] → (∀ c ∈ ds, c.isDigit) →
    IsFixedForm most ds
  | places {ds es : List Char} {last : Char} :
    ds ≠ [] → (∀ c ∈ ds, c.isDigit) →
    (∀ c ∈ es ++ [last], c.isDigit) → last ≠ '0' → (es ++ [last]).length ≤ most →
    IsFixedForm most (ds ++ '.' :: (es ++ [last]))

/-- A digit that is not zero, a point, some more digits, and an exponent of at least two digits. -/
inductive IsScientificForm (places : ℕ) : List Char → Prop where
  | of {d sign : Char} {ds es : List Char} :
    d.isDigit → d ≠ '0' → (∀ c ∈ ds, c.isDigit) → ds.length = places →
    sign = '+' ∨ sign = '-' → (∀ c ∈ es, c.isDigit) → 2 ≤ es.length →
    IsScientificForm places (d :: '.' :: ds ++ 'e' :: sign :: es)

variable {s k ds es : List Char} {c : Char} {n w places : ℕ} {e : ℤ}

/-! ### Rows of digits -/

/-- Digits are read as the core library reads them. -/
lemma natOfDigits_eq (n : ℕ) (ds : List Char) : natOfDigits n ds = Nat.ofDigitChars 10 ds n :=
  Nat.ofDigitChars_eq_foldl.symm

/-- Digits are read one after the other. -/
lemma natOfDigits_append : natOfDigits (natOfDigits n ds) es = natOfDigits n (ds ++ es) :=
  List.foldl_append.symm

/-- Zeros at the end multiply by powers of ten. -/
lemma natOfDigits_zeros : natOfDigits n (List.replicate w '0') = 10 ^ w * n := by
  rw [natOfDigits_eq, Nat.ofDigitChars_replicate_zero]

/-- A number with zeros in front of it is read as the number. -/
lemma natOfDigits_paddedDigits : natOfDigits 0 (paddedDigits w n) = n := by
  rw [paddedDigits, ← natOfDigits_append, natOfDigits_zeros, mul_zero, natOfDigits_eq, digits,
    Nat.ofDigitChars_toDigits (by decide) (by decide)]

/-- A padded number is as wide as it has to be. -/
lemma le_length_paddedDigits : w ≤ (paddedDigits w n).length := by
  simp only [paddedDigits, List.length_append, List.length_replicate]
  omega

/-- A row of digits denotes less than the power of ten with as many zeros. -/
lemma natOfDigits_lt (h : ∀ c ∈ ds, c.isDigit) : natOfDigits 0 ds < 10 ^ ds.length := by
  induction ds using List.reverseRecOn with
  | nil => exact Nat.one_pos
  | append_singleton ds c ih =>
    have hrest := ih fun d hd => h d (by simp [hd])
    have hc : c.toNat ≤ 57 := by
      have := h c (by simp)
      simp only [Char.isDigit, Bool.and_eq_true, decide_eq_true_eq] at this
      exact this.2
    rw [← natOfDigits_append, List.length_append, List.length_singleton, pow_succ]
    show 10 * natOfDigits 0 ds + (c.toNat - 48) < _
    omega

/-! ### Reading a decimal -/

/-- Digits are read up to where no digit follows. -/
lemma takeDigits_digits (h : ∀ c ∈ ds, c.isDigit) (hk : StartsOff k) (afterDigit : Bool) :
    takeDigits afterDigit (ds ++ k) = (ds, k) := by
  induction ds generalizing afterDigit with
  | nil => exact takeDigits_of_startsOff afterDigit hk
  | cons c ds ih =>
    obtain ⟨hc, hds⟩ := List.forall_mem_cons.1 h
    have hscore : c ≠ '_' := by
      rintro rfl
      cases hc
    rw [List.cons_append, takeDigits_cons _ _ hscore, if_pos hc, ih hds]

/-- A text that begins with a digit has no sign. -/
lemma takeSign_of_isDigit (hc : c.isDigit) : takeSign (c :: s) = (false, c :: s) := by
  unfold takeSign
  split
  · rename_i heq
    cases heq
    cases hc
  · rename_i heq
    cases heq
    cases hc
  · rfl

/-- The exponent begins with no digit. -/
lemma startsOff_exponentText : StartsOff (exponentText e) := by
  rintro _ ⟨⟩
  decide

/-- The text of an exponent is read as the exponent. -/
lemma takeExponent_exponentText (e : ℤ) : takeExponent (exponentText e) = (e, []) := by
  have hdigits := takeDigits_digits (isDigit_of_mem_paddedDigits (w := 2) (n := e.natAbs)) (k := [])
    (fun _ => nofun) false
  rw [List.append_nil] at hdigits
  have hne : paddedDigits 2 e.natAbs ≠ [] := List.ne_nil_of_length_pos
    (Nat.lt_of_lt_of_le (by decide) (le_length_paddedDigits (w := 2)))
  obtain ⟨d, ds, hds⟩ := List.exists_cons_of_ne_nil hne
  have hvalue : natOfDigits 0 (d :: ds) = e.natAbs := by rw [← hds, natOfDigits_paddedDigits]
  rw [exponentText, takeExponent, if_pos (.inl rfl)]
  by_cases he : e < 0
  · simp only [he, if_true, takeSign, hdigits]
    simp only [hds, hvalue]
    simp only [Prod.mk.injEq, and_true]
    omega
  · simp only [he, if_false, takeSign, hdigits]
    simp only [hds, hvalue]
    simp only [Bool.false_eq_true, if_false, Prod.mk.injEq, and_true]
    omega

/-- Digits are read as the number that they denote. -/
lemma takeDecimal?_digits (hne : ds ≠ []) (h : ∀ c ∈ ds, c.isDigit) :
    takeDecimal? ds = some (natOfDigits 0 ds, 0, []) := by
  have hds := takeDigits_digits h (k := []) (fun _ => nofun) false
  rw [List.append_nil] at hds
  simp [takeDecimal?_eq, hds, takePlaces, takeExponent, hne, natOfDigits]

/-- Digits with a point between them, and what may stand behind them. -/
lemma takeDecimal?_point (hne : ds ≠ []) (h : ∀ c ∈ ds, c.isDigit) (hes : ∀ c ∈ es, c.isDigit)
    (hk : StartsOff k) : takeDecimal? (ds ++ '.' :: (es ++ k)) =
      some (natOfDigits 0 (ds ++ es), (takeExponent k).1 - es.length, (takeExponent k).2) := by
  have hpoint : StartsOff ('.' :: (es ++ k)) := by
    rintro _ ⟨⟩
    decide
  simp [takeDecimal?_eq, takeDigits_digits h hpoint, takePlaces, takeDigits_digits hes hk, hne,
    natOfDigits_append]

/-! ### Signs -/

/-- The fixed form begins with a digit. -/
lemma IsFixedForm.begins (h : IsFixedForm places s) : ∃ c t, s = c :: t ∧ c.isDigit := by
  cases h with
  | whole hne hds | places hne hds =>
    obtain ⟨c, ds, rfl⟩ := List.exists_cons_of_ne_nil hne
    exact ⟨c, _, rfl, hds c (by simp)⟩

/-- The scientific form begins with a digit. -/
lemma IsScientificForm.begins (h : IsScientificForm places s) : ∃ c t, s = c :: t ∧ c.isDigit := by
  cases h with
  | of hd => exact ⟨_, _, rfl, hd⟩

/-- A minus in front of a decimal makes it negative. -/
lemma denoted?_signed (negative : Bool) (hs : ∃ c t, s = c :: t ∧ c.isDigit)
    (h : takeDecimal? s = some (n, e, [])) :
    denoted? ((if negative then ['-'] else []) ++ s) = some (signed negative (n * 10 ^ e)) := by
  have hsign : takeSign ((if negative then ['-'] else []) ++ s) = (negative, s) := by
    cases negative with
    | true => rfl
    | false =>
      obtain ⟨c, t, rfl, hc⟩ := hs
      exact takeSign_of_isDigit hc
  simp only [denoted?, hsign, h]

end Formulary.Number

namespace Formulary.Shown

open Formulary.Number Formulary.Formula

variable {s ds es : List Char} {c : Char} {n places : ℕ} {e : ℤ}

/-! ### Fixed form -/

/-- A zero at the end is dropped. -/
lemma dropTrailing_zero : dropTrailing (s ++ ['0']) = dropTrailing s := by
  simp [dropTrailing]

/-- Nothing is dropped where neither a zero nor a point ends a text. -/
lemma dropTrailing_of_ne (hzero : c ≠ '0') (hpoint : c ≠ '.') : dropTrailing (s ++ [c]) = s ++ [c] := by
  simp [dropTrailing, hzero, hpoint]

/-- What is dropped behind a point: zeros, and the point if nothing else stands there. -/
lemma dropTrailing_point (hne : ds ≠ []) (hds : ∀ c ∈ ds, c.isDigit) (hes : ∀ c ∈ es, c.isDigit) :
    ∃ z fs, es = fs ++ List.replicate z '0' ∧
      (fs = [] ∧ dropTrailing (ds ++ '.' :: es) = ds ∨
        (∃ gs last, fs = gs ++ [last] ∧ last ≠ '0') ∧
          dropTrailing (ds ++ '.' :: es) = ds ++ '.' :: fs) := by
  have not_point {c : Char} (hc : c.isDigit) : c ≠ '.' := by
    rintro rfl
    cases hc
  induction es using List.reverseRecOn with
  | nil =>
    refine ⟨0, [], rfl, .inl ⟨rfl, ?_⟩⟩
    obtain ⟨ds, c, rfl⟩ := (List.eq_nil_or_concat ds).resolve_left hne
    simp [dropTrailing, not_point (hds c (by simp))]
  | append_singleton es c ih =>
    obtain rfl | hc := eq_or_ne c '0'
    · obtain ⟨z, fs, rfl, hdrop⟩ := ih fun d hd => hes d (by simp [hd])
      refine ⟨z + 1, fs, by rw [List.replicate_succ', List.append_assoc], ?_⟩
      rwa [← List.cons_append, ← List.append_assoc, dropTrailing_zero]
    · refine ⟨0, es ++ [c], by simp, .inr ⟨⟨es, c, rfl, hc⟩, ?_⟩⟩
      rw [← List.cons_append, ← List.append_assoc, dropTrailing_of_ne hc (not_point (hes c (by simp)))]

/-- A number of units written out without trailing zeros denotes it. -/
theorem isFixedForm_dropTrailing (places n : ℕ) :
    IsFixedForm places (dropTrailing (fixedText places n)) ∧
      ∃ a e, takeDecimal? (dropTrailing (fixedText places n)) = some (a, e, []) ∧
        (a * 10 ^ e : ℚ) = n / 10 ^ places := by
  have hlength : places + 1 ≤ (paddedDigits (places + 1) n).length := le_length_paddedDigits
  have hvalue : natOfDigits 0 (paddedDigits (places + 1) n) = n := natOfDigits_paddedDigits
  have hdigits := isDigit_of_mem_paddedDigits (w := places + 1) (n := n)
  simp only [fixedText]
  generalize paddedDigits (places + 1) n = padded at *
  obtain ⟨ds, es, rfl, hds, hes⟩ : ∃ ds es, padded = ds ++ es ∧
      ds = padded.take (padded.length - places) ∧ es = padded.drop (padded.length - places) :=
    ⟨_, _, (List.take_append_drop _ _).symm, rfl, rfl⟩
  rw [← hds, ← hes]
  have hplaces : es.length = places := by
    have := congrArg List.length hes
    rw [List.length_drop] at this
    omega
  have hne : ds ≠ [] := by
    rintro rfl
    rw [List.nil_append] at hlength
    omega
  have hdigits : (∀ c ∈ ds, c.isDigit) ∧ ∀ c ∈ es, c.isDigit :=
    ⟨fun c hc => hdigits c (by simp [hc]), fun c hc => hdigits c (by simp [hc])⟩
  clear hds hes
  subst hplaces
  obtain ⟨z, fs, rfl, ⟨rfl, hdrop⟩ | ⟨⟨gs, last, rfl, hlast⟩, hdrop⟩⟩ :=
    dropTrailing_point hne hdigits.1 hdigits.2
  · rw [hdrop]
    refine ⟨.whole hne hdigits.1, _, _, takeDecimal?_digits hne hdigits.1, ?_⟩
    rw [List.nil_append, ← natOfDigits_append, natOfDigits_zeros] at hvalue
    rw [← hvalue, zpow_zero, mul_one]
    simp
  · have hfs : ∀ c ∈ gs ++ [last], c.isDigit := fun c hc => hdigits.2 c (List.mem_append_left _ hc)
    have hread := takeDecimal?_point hne hdigits.1 hfs (k := []) (fun _ => nofun)
    rw [List.append_nil] at hread
    rw [hdrop]
    refine ⟨.places hne hdigits.1 hfs hlast (by simp), _, _, hread, ?_⟩
    have hlength : (gs ++ [last] ++ List.replicate z '0').length = (gs ++ [last]).length + z := by
      rw [List.length_append, List.length_replicate]
    rw [← List.append_assoc, ← natOfDigits_append, natOfDigits_zeros] at hvalue
    rw [← hvalue, hlength, takeExponent, zero_sub, zpow_neg, zpow_natCast, pow_add]
    push_cast
    field_simp

/-! ### Scientific form -/

/-- A number with the right number of digits and an exponent, written out, is read as what it was. -/
theorem isScientificForm_scientificText (hlow : 10 ^ places ≤ n) (hhigh : n < 10 ^ (places + 1))
    (e : ℤ) : IsScientificForm places (scientificText places n e) ∧
      takeDecimal? (scientificText places n e) = some (n, e - places, []) := by
  have hlength : (paddedDigits (places + 1) n).length = places + 1 := by
    have : (digits n).length ≤ places + 1 :=
      (Nat.length_toDigits_le_iff (by decide) (Nat.succ_pos places)).2 hhigh
    simp only [paddedDigits, List.length_append, List.length_replicate]
    omega
  have hvalue : natOfDigits 0 (paddedDigits (places + 1) n) = n := natOfDigits_paddedDigits
  have hdigits := isDigit_of_mem_paddedDigits (w := places + 1) (n := n)
  rw [scientificText]
  generalize paddedDigits (places + 1) n = padded at *
  cases padded with
  | nil => cases hlength
  | cons d ds =>
    obtain ⟨hd, hds⟩ := List.forall_mem_cons.1 hdigits
    have hplaces : ds.length = places := Nat.succ.inj hlength
    refine ⟨.of hd ?_ hds hplaces ?_ isDigit_of_mem_paddedDigits le_length_paddedDigits, ?_⟩
    · -- After a zero there would be too few digits.
      rintro rfl
      have := natOfDigits_lt hds
      rw [hplaces] at this
      exact absurd hvalue (Nat.ne_of_lt (this.trans_le hlow))
    · split
      · exact .inr rfl
      · exact .inl rfl
    · have hread := takeDecimal?_point (List.cons_ne_nil d []) (by simpa using hd) hds
        (startsOff_exponentText (e := e))
      rw [takeExponent_exponentText, List.singleton_append, List.singleton_append, hvalue,
        hplaces] at hread
      exact hread

end Formulary.Shown
