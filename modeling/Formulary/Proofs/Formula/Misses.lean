import Formulary.Proofs.Formula.Conversion

/-!
# Calls that are not converted

A call is missed if blanks stand before its parenthesis (`Direct`), or if a call of the same or of
an earlier function stands in its argument (`Ordered`), and for no other reason: `missed_radians`.
-/

namespace Formulary.Formula.Layout

open Formulary.Text

/-- How many calls are not converted. -/
def missed : Layout → Nat
  | plain _ => 0
  | paren m w i r => (if m = false ∧ (called? w).isSome then 1 else 0) + i.missed + r.missed

/-- The functions that are called. -/
def callees : Layout → List Function
  | plain _ => []
  | paren _ w i r => (called? w).toList ++ i.callees ++ r.callees

/-- No blanks stand between a function and its argument. -/
def Direct : Layout → Prop
  | plain _ => True
  | paren _ w i r => (called? w = callee? w) ∧ i.Direct ∧ r.Direct

/-- Whether the calls of one function are converted before those of another. -/
def precedes (g f : Function) : Prop :=
  Function.trigonometric.idxOf g < Function.trigonometric.idxOf f

instance (g f : Function) : Decidable (precedes g f) := inferInstanceAs (Decidable (_ < _))

/-- The calls in the argument of a call are those of functions that come later. -/
def Ordered : Layout → Prop
  | plain _ => True
  | paren _ w i r => (∀ g ∈ called? w, ∀ f ∈ i.callees, precedes g f) ∧ i.Ordered ∧ r.Ordered

/-- Nothing but blanks stands in a layout. -/
def Blank : Layout → Prop
  | plain w => ∀ c ∈ w, isBlank c
  | paren _ _ _ _ => False

/-- No commas stand in a layout outside of its parentheses. -/
def Single : Layout → Prop
  | plain w => ',' ∉ w
  | paren _ w _ r => ',' ∉ w ∧ r.Single

/-- Every call has one argument. -/
def Filled : Layout → Prop
  | plain _ => True
  | paren _ w i r => ((called? w).isSome → ¬ i.Blank ∧ i.Single) ∧ i.Filled ∧ r.Filled

/-- In the arguments of calls, parentheses are not nested any deeper. -/
def Shallow : Layout → Prop
  | plain _ => True
  | paren _ w i r => ((called? w).isSome → i.depth ≤ 1) ∧ i.Shallow ∧ r.Shallow

instance : (t : Layout) → Decidable t.Direct
  | plain _ => isTrue trivial
  | paren _ w i r =>
    have : Decidable i.Direct := instDecidableDirect i
    have : Decidable r.Direct := instDecidableDirect r
    inferInstanceAs (Decidable (called? w = callee? w ∧ i.Direct ∧ r.Direct))

instance : (t : Layout) → Decidable t.Ordered
  | plain _ => isTrue trivial
  | paren _ w i r =>
    have : Decidable i.Ordered := instDecidableOrdered i
    have : Decidable r.Ordered := instDecidableOrdered r
    inferInstanceAs (Decidable
      ((∀ g ∈ called? w, ∀ f ∈ i.callees, precedes g f) ∧ i.Ordered ∧ r.Ordered))

instance : (t : Layout) → Decidable t.Blank
  | plain w => decidable_of_iff (w.all isBlank) List.all_eq_true
  | paren _ _ _ _ => isFalse id

instance : (t : Layout) → Decidable t.Single
  | plain w => inferInstanceAs (Decidable (',' ∉ w))
  | paren _ w _ r =>
    have : Decidable r.Single := instDecidableSingle r
    inferInstanceAs (Decidable (',' ∉ w ∧ r.Single))

instance : (t : Layout) → Decidable t.Filled
  | plain _ => isTrue trivial
  | paren _ w i r =>
    have : Decidable i.Filled := instDecidableFilled i
    have : Decidable r.Filled := instDecidableFilled r
    inferInstanceAs (Decidable (((called? w).isSome → ¬ i.Blank ∧ i.Single) ∧ i.Filled ∧ r.Filled))

instance : (t : Layout) → Decidable t.Shallow
  | plain _ => isTrue trivial
  | paren _ w i r =>
    have : Decidable i.Shallow := instDecidableShallow i
    have : Decidable r.Shallow := instDecidableShallow r
    inferInstanceAs (Decidable (((called? w).isSome → i.depth ≤ 1) ∧ i.Shallow ∧ r.Shallow))

variable {f g : Function} {fs : List Function} {t i r : Layout} {w v : List Char}

/-- A layout without parentheses stays as it is. -/
lemma passes_plain : (plain w).passes fs = plain w := by
  induction fs with
  | nil => rfl
  | cons f fs ih => exact ih

/-- A call that is converted already stays so. -/
lemma passes_converted : (paren true w i r).passes fs = paren true w (i.passes fs) (r.passes fs) := by
  induction fs generalizing i r with
  | nil => rfl
  | cons f fs ih =>
    rw [passes_cons, pass, if_neg (by simp), ih]
    rfl

/-- Where no function is called, the conversion goes on inside and behind the parentheses. -/
lemma passes_of_not_calls {m : Bool} (h : ∀ f ∈ fs, calls f w = false) :
    (paren m w i r).passes fs = paren m w (i.passes fs) (r.passes fs) := by
  induction fs generalizing i r with
  | nil => rfl
  | cons f fs ih =>
    have hf := h f (by simp)
    rw [passes_cons, pass, if_neg (by simp [hf]), ih fun g hg => h g (by simp [hg])]
    rfl

/-- A call is converted in its turn, unless its argument is too deep by then. -/
lemma passes_of_calls {gs : List Function} (hg : calls g w) (hfs : g ∉ fs) (hgs : g ∉ gs) :
    (paren false w i r).passes (fs ++ g :: gs) =
      if (i.passes fs).text ≠ [] ∧ (i.passes fs).depth ≤ 1 then
        paren true w ((i.passes fs).passes gs) (r.passes (fs ++ g :: gs))
      else paren false w (i.passes (fs ++ g :: gs)) (r.passes (fs ++ g :: gs)) := by
  have hnot : ∀ {l : List Function}, g ∉ l → ∀ f ∈ l, calls f w = false := by
    intro l hl f hf
    by_contra hcalls
    obtain rfl := calls_unique (by simpa using hcalls) hg
    exact hl hf
  -- The functions before `g` change the argument only, and those behind it what `g` has left.
  simp only [passes_append, passes_cons]
  rw [passes_of_not_calls (hnot hfs), pass]
  split
  · rename_i h
    rw [if_pos h.2.2, passes_converted]
  · rename_i h
    rw [if_neg fun h' => h ⟨rfl, hg, h'⟩, passes_of_not_calls (hnot hgs)]

/-- The functions that are called without blanks before their arguments. -/
def directCallees : Layout → List Function
  | plain _ => []
  | paren _ w i r => (callee? w).toList ++ i.directCallees ++ r.directCallees

/-- A function that is called at the end of a text is called. -/
lemma calls_of_callee? (h : callee? w = some f) : calls f w := (callee?_eq_some.1 h).2

/-- No trigonometric function is called where none is found. -/
lemma not_calls_of_callee? (h : callee? w = none) : ∀ f ∈ Function.trigonometric, calls f w = false := by
  intro f hf
  by_contra hcalls
  rw [callee?_eq_some.2 ⟨hf, by simpa using hcalls⟩] at h
  cases h

/-- A function that is called without blanks is called. -/
lemma mem_callees (h : f ∈ t.directCallees) : f ∈ t.callees := by
  induction t with
  | plain w => cases h
  | paren m w i r ihi ihr =>
    simp only [directCallees, callees, List.mem_append, Option.mem_toList] at h ⊢
    exact h.imp (Or.imp called?_of_callee? ihi) ihr

/-- Only trigonometric functions are called. -/
lemma callees_subset (h : f ∈ t.callees) : f ∈ Function.trigonometric := by
  induction t with
  | plain w => cases h
  | paren m w i r ihi ihr =>
    simp only [callees, List.mem_append, Option.mem_toList] at h
    obtain (h | h) | h := h
    · exact (callee?_eq_some.1 h).1
    · exact ihi h
    · exact ihr h

/-- Nothing happens to a layout without calls of the functions. -/
lemma passes_eq_self (hfs : fs ⊆ Function.trigonometric) (h : ∀ f ∈ fs, f ∉ t.directCallees) :
    t.passes fs = t := by
  induction t with
  | plain w => exact passes_plain
  | paren m w i r ihi ihr =>
    simp only [directCallees, List.mem_append, Option.mem_toList, not_or] at h
    rw [passes_of_not_calls, ihi fun f hf => (h f hf).1.2, ihr fun f hf => (h f hf).2]
    intro f hf
    by_contra hcalls
    exact (h f hf).1.1 (callee?_eq_some.2 ⟨hfs hf, by simpa using hcalls⟩)

/-- A layout that is not nested is a text. -/
lemma depth_eq_zero (h : t.depth = 0) : ∃ w, t = plain w := by
  cases t with
  | plain w => exact ⟨w, rfl⟩
  | paren m w i r =>
    simp only [depth] at h
    omega

/-- A call whose argument has no parentheses is converted in its turn. -/
lemma passes_of_plain :
    (paren false w (plain v) r).passes fs =
      paren (fs.any (calls · w) && !v.isEmpty) w (plain v) (r.passes fs) := by
  induction fs generalizing r with
  | nil => rfl
  | cons f fs ih =>
    rw [passes_cons, pass]
    by_cases hf : calls f w ∧ v ≠ []
    · rw [if_pos ⟨rfl, hf.1, hf.2, Nat.zero_le _⟩, passes_converted, passes_plain]
      simp [hf, passes_cons]
    · rw [if_neg fun h => hf ⟨h.2.1, h.2.2.1⟩]
      simp only [pass]
      rw [ih, passes_cons]
      rcases not_and_or.1 hf with hf | hf
      · simp [hf]
      · simp [not_not.1 hf]

/-- A layout that is not blank has a text. -/
lemma text_ne_nil (h : ¬ t.Blank) : t.text ≠ [] := by
  cases t with
  | plain w =>
    rintro rfl
    exact h nofun
  | paren m w i r => simp [text]

/-- No parentheses stand in parentheses, and calls have arguments. -/
inductive Flat : Layout → Prop where
  | plain (w : List Char) : Flat (plain w)
  | paren {w v : List Char} {r : Layout} :
    Flat r →
    ((called? w).isSome → v ≠ []) →
    Flat (paren false w (.plain v) r)

/-- A layout with filled calls that is not nested any deeper is flat. -/
lemma Flat.of_filled (hd : t.depth ≤ 1) (he : t.erase = t) (hf : t.Filled) : t.Flat := by
  induction t with
  | plain w => exact .plain w
  | paren m w i r ihi ihr =>
    simp only [erase, Layout.paren.injEq, true_and] at he
    obtain ⟨rfl, hei, her⟩ := he
    simp only [depth, Bool.toNat_false] at hd
    obtain ⟨v, rfl⟩ := depth_eq_zero (t := i) (by omega)
    exact .paren (ihr (by omega) her hf.2.2) fun h => text_ne_nil (hf.1 h).1

/-- A converted call makes an argument deep. -/
lemma Flat.depth_passes (h : t.Flat) (hf : f ∈ fs) (hmem : f ∈ t.directCallees) :
    1 < (t.passes fs).depth := by
  induction h with
  | plain w => cases hmem
  | @paren w v r _ hv ih =>
    rw [passes_of_plain]
    simp only [directCallees, List.append_nil, List.mem_append, Option.mem_toList] at hmem
    obtain hmem | hmem := hmem
    · have hany : fs.any (calls · w) = true :=
        List.any_eq_true.2 ⟨f, hf, calls_of_callee? hmem⟩
      have hne : v.isEmpty = false := by
        simpa using hv (by rw [called?_of_callee? hmem]; rfl)
      simp only [hany, hne, depth, Bool.not_false, Bool.and_self, Bool.toNat_true]
      omega
    · have := ih hmem
      simp only [depth]
      omega

/-- In a flat layout, calls are missed if they are not direct or not among the functions. -/
lemma Flat.missed_passes (h : t.Flat) (hfs : fs ⊆ Function.trigonometric) :
    (t.passes fs).missed = 0 ↔ t.Direct ∧ ∀ f ∈ t.callees, f ∈ fs := by
  induction h with
  | plain w =>
    rw [passes_plain]
    simp [missed, Direct, callees]
  | @paren w v r _ hv ih =>
    rw [passes_of_plain]
    simp only [missed, Direct, callees, List.append_nil, List.mem_append, Option.mem_toList,
      Nat.add_eq_zero_iff, true_and, and_true, ih]
    have hnode : ((if (fs.any (calls · w) && !v.isEmpty) = false ∧ (called? w).isSome then 1 else 0) = 0) ↔
        called? w = callee? w ∧ ∀ f, called? w = some f → f ∈ fs := by
      cases hcalled : called? w with
      | none =>
        have : callee? w = none := by
          cases hcallee : callee? w with
          | none => rfl
          | some f =>
            rw [called?_of_callee? hcallee] at hcalled
            cases hcalled
        simp [this]
      | some g =>
        have hne : v.isEmpty = false := by simpa using hv (by rw [hcalled]; rfl)
        simp only [hne, Bool.not_false, Bool.and_true, Option.isSome_some, and_true,
          Option.some.injEq, forall_eq']
        constructor
        · intro h
          have hany : fs.any (calls · w) = true := by
            by_contra hany
            rw [if_pos (by simpa using hany)] at h
            cases h
          obtain ⟨f, hf, hcalls⟩ := List.any_eq_true.1 hany
          have hcallee := callee?_eq_some.2 ⟨hfs hf, hcalls⟩
          rw [called?_of_callee? hcallee] at hcalled
          cases hcalled
          exact ⟨hcallee.symm, hf⟩
        · rintro ⟨hcallee, hg⟩
          rw [if_neg]
          rw [List.any_eq_true.2 ⟨g, hg, calls_of_callee? hcallee.symm⟩]
          simp
    rw [hnode]
    constructor
    · rintro ⟨⟨hd, hw⟩, hr, hrest⟩
      refine ⟨⟨hd, hr⟩, fun f hf => ?_⟩
      obtain hf | hf := hf
      · exact hw f hf
      · exact hrest f hf
    · rintro ⟨⟨hd, hr⟩, hall⟩
      exact ⟨⟨hd, fun f hf => hall f (.inl hf)⟩, hr, fun f hf => hall f (.inr hf)⟩

/-- The calls of a flat layout are in order. -/
lemma Flat.ordered (h : t.Flat) : t.Ordered := by
  induction h with
  | plain w => trivial
  | paren _ _ ih =>
    refine ⟨fun _ _ _ hf => ?_, trivial, ih⟩
    cases hf

/-- The function that is called is trigonometric. -/
lemma called?_mem (h : called? w = some g) : g ∈ Function.trigonometric := (callee?_eq_some.1 h).1

/-- The functions before and after one of them in the order of their conversion. -/
lemma trigonometric_split (hg : g ∈ Function.trigonometric) :
    ∃ fs gs, Function.trigonometric = fs ++ g :: gs ∧ g ∉ fs ∧ g ∉ gs ∧
      (∀ f ∈ fs, ¬ precedes g f) ∧ ∀ f ∈ Function.trigonometric, precedes g f ↔ f ∈ gs := by
  refine ⟨Function.trigonometric.take (Function.trigonometric.idxOf g),
    Function.trigonometric.drop (Function.trigonometric.idxOf g + 1), ?_⟩
  revert g
  decide

/-- Exactly the calls with blanks or with an earlier conversion in their argument are missed. -/
theorem missed_radians (he : t.erase = t) (hf : t.Filled) (hs : t.Shallow) :
    t.radians.missed = 0 ↔ t.Direct ∧ t.Ordered := by
  induction t with
  | plain w =>
    rw [radians, passes_plain]
    simp [missed, Direct, Ordered]
  | paren m w i r ihi ihr =>
    simp only [erase, Layout.paren.injEq, true_and] at he
    obtain ⟨rfl, hei, her⟩ := he
    obtain ⟨hfilled, hfi, hfr⟩ := hf
    obtain ⟨hshallow, hsi, hsr⟩ := hs
    have ihi := ihi hei hfi hsi
    have ihr := ihr her hfr hsr
    cases hcallee : callee? w with
    | none =>
      have hpass := passes_of_not_calls (i := i) (r := r) (m := false) (not_calls_of_callee? hcallee)
      rw [radians, hpass, missed, Direct, Ordered, hcallee]
      cases hcalled : called? w with
      | none =>
        simp only [radians] at ihi ihr
        simp only [Option.isSome_none, Bool.false_eq_true, and_false, if_false, Nat.zero_add,
          Nat.add_eq_zero_iff, ihi, ihr, Option.not_mem_none, false_implies, implies_true, true_and]
        exact and_and_and_comm
      | some g => simp
    | some g =>
      have hcalled := called?_of_callee? hcallee
      obtain ⟨fs, gs, htrig, hfs, hgs, hbefore, hafter⟩ := trigonometric_split (called?_mem hcalled)
      have hne := text_ne_nil (hfilled (by rw [hcalled]; rfl)).1
      have hdepth := hshallow (by rw [hcalled]; rfl)
      have hflat := Flat.of_filled hdepth hei hfi
      have hsub : fs ⊆ Function.trigonometric := by
        rw [htrig]
        exact List.subset_append_left _ _
      have hsub' : gs ⊆ Function.trigonometric := by
        rw [htrig]
        exact fun f hf => List.mem_append_right fs (List.mem_cons_of_mem g hf)
      have hpass := passes_of_calls (i := i) (r := r) (calls_of_callee? hcallee) hfs hgs
      rw [← htrig] at hpass
      rw [radians, hpass, Direct, Ordered, hcallee, hcalled]
      by_cases hearly : ∃ f ∈ fs, f ∈ i.directCallees
      · -- The argument is too deep when the turn of the call comes.
        obtain ⟨f, hf, hfi⟩ := hearly
        have hdeep := hflat.depth_passes hf hfi
        rw [if_neg fun h => by omega, missed, hcalled]
        simp only [Option.isSome_some, and_self, if_true]
        refine ⟨fun h => by omega, fun h => ?_⟩
        exact absurd (h.2.1 g rfl f (mem_callees hfi)) (hbefore f hf)
      · -- Nothing has happened to the argument before, so the call is converted.
        have hself : i.passes fs = i :=
          passes_eq_self hsub fun f hf hfi => hearly ⟨f, hf, hfi⟩
        have hinner := hflat.missed_passes hsub'
        simp only [radians] at ihr
        rw [hself, if_pos ⟨hne, hdepth⟩, missed]
        simp only [Bool.true_eq_false, false_and, if_false, Nat.zero_add, Nat.add_eq_zero_iff,
          hinner, ihr, Option.mem_def, Option.some.injEq, forall_eq', true_and]
        constructor
        · rintro ⟨⟨hdi, hall⟩, hdr, hor⟩
          exact ⟨⟨hdi, hdr⟩, fun f hf => (hafter f (callees_subset hf)).2 (hall f hf), hflat.ordered, hor⟩
        · rintro ⟨⟨hdi, hdr⟩, hall, -, hor⟩
          exact ⟨⟨hdi, fun f hf => (hafter f (callees_subset hf)).1 (hall f hf)⟩, hdr, hor⟩

end Formulary.Formula.Layout
