import Formulary.Proofs.Calculator.Transparency

/-!
# When keys are the same

A key holds bindings in the order of their names, so that it does not depend on the order in which
names are bound. Keys without values that are no numbers are the same exactly if they are those of one
formula and one unknown, and of bindings of the same names to equal values (`same_of_iff`).
-/

namespace Formulary

open Formulary.Number

namespace CacheKey

variable {bs cs : List (String × Float)}

/-- The bindings in the order of their names. -/
def sorted (bs : List (String × Float)) : List (String × Float) :=
  bs.mergeSort fun a b => a.1 ≤ b.1

/-- Sorting bindings of different names does not change what is found under a name. -/
lemma lookup_sorted (h : (bs.map (·.1)).Nodup) (n : String) :
    (sorted bs).lookup n = bs.lookup n :=
  (lookup_perm h (List.mergeSort_perm bs _).symm n).symm

/-- Sorted bindings are in the order of their names. -/
lemma pairwise_sorted (bs : List (String × Float)) :
    (sorted bs).Pairwise fun a b => a.1 ≤ b.1 := by
  refine (List.pairwise_mergeSort ?_ ?_ bs).imp fun h => of_decide_eq_true h
  · intro a b c
    simp only [decide_eq_true_eq]
    exact String.le_trans
  · intro a b
    simp only [Bool.or_eq_true, decide_eq_true_eq]
    exact String.le_total _ _

/-- The names stand in one order, which depends only on the names. -/
lemma names_sorted (h : (bs.map (·.1)).Perm (cs.map (·.1))) :
    (sorted bs).map (·.1) = (sorted cs).map (·.1) := by
  have inOrder (l : List (String × Float)) :
      ((sorted l).map (·.1)).Pairwise fun a b => a ≤ b := List.pairwise_map.2 (pairwise_sorted l)
  have hperm : ((sorted bs).map (·.1)).Perm ((sorted cs).map (·.1)) :=
    ((List.mergeSort_perm bs _).map _).trans (h.trans ((List.mergeSort_perm cs _).map _).symm)
  exact hperm.eq_of_pairwise (fun _ _ _ _ => String.le_antisymm) (inOrder bs) (inOrder cs)

/-- Where no name is bound twice, the order in which names are bound does not matter. -/
lemma sorted_perm (hnd : (bs.map (·.1)).Nodup) (h : bs.Perm cs) : sorted bs = sorted cs := by
  have hbs : (sorted bs).Perm bs := List.mergeSort_perm bs _
  have hcs : (sorted cs).Perm cs := List.mergeSort_perm cs _
  have hperm : (sorted bs).Perm (sorted cs) := hbs.trans (h.trans hcs.symm)
  refine hperm.eq_of_pairwise (fun a b ha hb hab hba => ?_) (pairwise_sorted bs) (pairwise_sorted cs)
  have hb : b ∈ bs := h.symm.subset (hcs.subset hb)
  exact List.inj_on_of_nodup_map hnd (hbs.subset ha) hb (String.le_antisymm hab hba)

/-- That two look-ups both miss, or find equal values. -/
def SameFound (x y : Option Float) : Prop := Option.Rel (fun x y => sameValue x y = true) x y

/-- In rows that are the same every name has the same value. -/
lemma sameFound_of_sameBindings (h : sameBindings bs cs) (n : String) :
    SameFound (bs.lookup n) (cs.lookup n) := by
  induction bs generalizing cs with
  | nil =>
    cases cs with
    | nil => exact .none
    | cons c cs => cases h
  | cons b bs ih =>
    cases cs with
    | nil => cases h
    | cons c cs =>
      obtain ⟨m, x⟩ := b
      obtain ⟨m', y⟩ := c
      simp only [sameBindings, Bool.and_eq_true, beq_iff_eq] at h
      obtain ⟨⟨rfl, hxy⟩, hrest⟩ := h
      simp only [List.lookup_cons]
      split
      · exact .some hxy
      · exact ih hrest

/-- Rows with the same names, once each and in one order, are the same if every value is. -/
lemma sameBindings_of_sameFound (hnames : bs.map (·.1) = cs.map (·.1)) (hnd : (bs.map (·.1)).Nodup)
    (h : ∀ n, SameFound (bs.lookup n) (cs.lookup n)) : sameBindings bs cs := by
  induction bs generalizing cs with
  | nil =>
    cases cs with
    | nil => rfl
    | cons c cs => cases hnames
  | cons b bs ih =>
    cases cs with
    | nil => cases hnames
    | cons c cs =>
      obtain ⟨m, x⟩ := b
      obtain ⟨m', y⟩ := c
      simp only [List.map_cons, List.cons.injEq] at hnames
      obtain ⟨rfl, hnames⟩ := hnames
      rw [List.map_cons, List.nodup_cons] at hnd
      have hhead := h m
      simp only [List.lookup_cons, beq_self_eq_true] at hhead
      have hrest : ∀ n, SameFound (bs.lookup n) (cs.lookup n) := by
        intro n
        by_cases hn : n = m
        · -- The name of the first binding does not occur again.
          have missing {l : List (String × Float)} (hl : m ∉ l.map (·.1)) : l.lookup m = none := by
            refine List.lookup_eq_none_iff.2 fun p hp => ?_
            have hne : m ≠ p.1 := fun heq => hl (heq ▸ List.mem_map_of_mem hp)
            simpa using hne
          rw [hn, missing hnd.1, missing (hnames ▸ hnd.1)]
          exact .none
        · have := h n
          rwa [List.lookup_cons, List.lookup_cons, beq_false_of_ne hn] at this
      cases hhead with
      | some hxy => simp [sameBindings, hxy, ih hnames hnd.2 hrest]

end CacheKey

namespace Question

open CacheKey

/-- That two look-ups both miss, or find values that are equal as numbers. -/
def EqualFound (x y : Option Float) : Prop := Option.Rel (fun x y => (x == y) = true) x y

/-- Equality of what is found is symmetric. -/
lemma EqualFound.symm {x y : Option Float} (h : EqualFound x y) : EqualFound y x := by
  cases h with
  | none => exact .none
  | some hxy => exact .some (beq_symm hxy)

/-- Equality of what is found is transitive. -/
lemma EqualFound.trans {x y z : Option Float} (h : EqualFound x y) (h' : EqualFound y z) :
    EqualFound x z := by
  cases h with
  | none => exact h'
  | some hxy =>
    cases h' with
    | some hyz => exact .some (beq_trans hxy hyz)

/-- Where a number is found, the cache tells apart what differs as a number. -/
lemma sameFound_iff {x y : Option Float} (hx : ∀ v, x = some v → ¬ v.isNaN) :
    SameFound x y ↔ EqualFound x y := by
  have sameValue_iff {v w : Float} (hv : ¬ v.isNaN) : sameValue v w ↔ (v == w) = true := by
    simp only [sameValue, hv, Bool.false_and, Bool.or_false]
  constructor
  · intro h
    cases h with
    | none => exact .none
    | some hvw => exact .some ((sameValue_iff (hx _ rfl)).1 hvw)
  · intro h
    cases h with
    | none => exact .none
    | some hvw => exact .some ((sameValue_iff (hx _ rfl)).2 hvw)

end Question

namespace CacheKey

open Question

variable {bs cs : List (String × Float)}

/-- Rows in which the same names are found have the same names. -/
lemma names_perm (hbs : (bs.map (·.1)).Nodup) (hcs : (cs.map (·.1)).Nodup)
    (h : ∀ n, EqualFound (bs.lookup n) (cs.lookup n)) : (bs.map (·.1)).Perm (cs.map (·.1)) := by
  have found {l l' : List (String × Float)} (hl : ∀ n, EqualFound (l.lookup n) (l'.lookup n))
      (hnd : (l.map (·.1)).Nodup) : ∀ n ∈ l.map (·.1), n ∈ l'.map (·.1) := by
    intro n hn
    obtain ⟨⟨n, x⟩, hx, rfl⟩ := List.mem_map.1 hn
    have hxy := hl n
    rw [lookup_of_mem hnd hx] at hxy
    cases hy : l'.lookup n with
    | none =>
      rw [hy] at hxy
      cases hxy
    | some y => exact List.mem_map.2 ⟨(n, y), mem_of_lookup hy, rfl⟩
  exact (List.perm_ext_iff_of_nodup hbs hcs).2 fun n =>
    ⟨found h hbs n, found (fun n => (h n).symm) hcs n⟩

/-- Rows in the order of their names are the same if every name is bound to equal values. -/
lemma sameBindings_sorted_iff (hbs : (bs.map (·.1)).Nodup) (hcs : (cs.map (·.1)).Nodup)
    (hnumbers : ∀ b ∈ bs, ¬ b.2.isNaN) :
    sameBindings (sorted bs) (sorted cs) ↔ ∀ n, EqualFound (bs.lookup n) (cs.lookup n) := by
  have hfound : ∀ n, SameFound ((sorted bs).lookup n) ((sorted cs).lookup n) ↔
      EqualFound (bs.lookup n) (cs.lookup n) := by
    intro n
    rw [lookup_sorted hbs, lookup_sorted hcs]
    exact sameFound_iff fun v hv => hnumbers (n, v) (mem_of_lookup hv)
  constructor
  · exact fun h n => (hfound n).1 (sameFound_of_sameBindings h n)
  · intro h
    refine sameBindings_of_sameFound (names_sorted (names_perm hbs hcs h)) ?_ fun n =>
      (hfound n).2 (h n)
    exact ((List.mergeSort_perm _ _).map _).nodup_iff.2 hbs

end CacheKey

namespace Question

open CacheKey

/--
That two questions are about the same formula and the same unknown, and that their bindings have
equal names and equal values.
-/
structure Equal (q q' : Question) : Prop where
  formula : q.equation.formula = q'.equation.formula
  unknown : q.unknown = q'.unknown
  bindings : ∀ n, EqualFound (Table.get? q.bindings n) (Table.get? q'.bindings n)

variable {q q' q'' : Question}

/-- Equality of questions is symmetric. -/
lemma Equal.symm (h : q.Equal q') : q'.Equal q :=
  ⟨h.formula.symm, h.unknown.symm, fun n => (h.bindings n).symm⟩

/-- Equality of questions is transitive. -/
lemma Equal.trans (h : q.Equal q') (h' : q'.Equal q'') : q.Equal q'' :=
  ⟨h.formula.trans h'.formula, h.unknown.trans h'.unknown,
    fun n => (h.bindings n).trans (h'.bindings n)⟩

/-- That a question binds each name once, and to a finite value. -/
structure Regular (q : Question) : Prop where
  nodup : (q.bindings.map (·.1)).Nodup
  finite : ∀ b ∈ q.bindings, b.2.isFinite

/-- Keys are the same exactly if the questions are equal. -/
theorem key_same_iff (hq : q.Regular) (hq' : q'.Regular) : q.key.same q'.key ↔ q.Equal q' := by
  have hbindings := sameBindings_sorted_iff hq.nodup hq'.nodup fun b hb =>
    not_isNaN_of_isFinite (hq.finite b hb)
  simp only [sorted] at hbindings
  simp only [key, CacheKey.of, same, Bool.and_eq_true, beq_iff_eq, hbindings]
  constructor
  · rintro ⟨⟨hformula, hunknown⟩, hfound⟩
    exact ⟨hformula, hunknown, hfound⟩
  · intro h
    exact ⟨⟨h.formula, h.unknown⟩, h.bindings⟩

end Question

namespace CacheKey

open Question

variable {formula formula' unknown unknown' : String} {bs cs : List (String × Float)}

/--
Two keys are the same if and only if they are those of one formula and one unknown, and the same names
are bound to equal values; in which order the names are bound does not matter.
-/
theorem same_of_iff (hbs : (bs.map (·.1)).Nodup) (hcs : (cs.map (·.1)).Nodup)
    (hnumbers : ∀ b ∈ bs, ¬ b.2.isNaN) :
    ((of formula unknown bs).same (of formula' unknown' cs) ↔ formula = formula' ∧
      unknown = unknown' ∧ ∀ n, EqualFound (bs.lookup n) (cs.lookup n)) ∧
    ∀ ds : List (String × Float), bs.Perm ds → of formula unknown ds = of formula unknown bs := by
  constructor
  · rw [← sameBindings_sorted_iff hbs hcs hnumbers]
    simp only [of, same, sorted, Bool.and_eq_true, beq_iff_eq, and_assoc]
  · intro ds hds
    exact congrArg (CacheKey.mk formula unknown) (sorted_perm hbs hds).symm

/-- Zeros of either sign are equal values, in any order; a name that is not bound tells keys apart. -/
theorem same_of_iff_zeros :
    let bs : List (String × Float) := [("x", 0.0), ("a", 1.5)]
    let cs : List (String × Float) := [("a", 1.5), ("x", -0.0)]
    (bs.map (·.1)).Nodup ∧ (cs.map (·.1)).Nodup ∧ (∀ b ∈ bs, ¬ b.2.isNaN) ∧
      (of "y = a*x" "y" bs).same (of "y = a*x" "y" cs) ∧
      ¬ (of "y = a*x" "y" bs).same (of "y = a*x" "y" [("a", 1.5)]) ∧
      of "y = a*x" "y" bs.reverse = of "y = a*x" "y" bs := by
  intro bs cs
  have hbs : (bs.map (·.1)).Nodup := by decide
  have hcs : (cs.map (·.1)).Nodup := by decide
  have hnumbers : ∀ b ∈ bs, ¬ b.2.isNaN := by decide +kernel
  have hsame := @same_of_iff "y = a*x" "y = a*x" "y" "y" bs cs hbs hcs hnumbers
  refine ⟨hbs, hcs, hnumbers, ?_, ?_, ?_⟩
  · refine hsame.1.2 ⟨rfl, rfl, fun n => ?_⟩
    by_cases hx : n = "x"
    · exact hx ▸ .some (by decide +kernel)
    by_cases ha : n = "a"
    · exact ha ▸ .some (by decide +kernel)
    · simp only [bs, cs, List.lookup_cons, beq_false_of_ne hx, beq_false_of_ne ha]
      exact .none
  · intro h
    have hx := ((same_of_iff hbs (by decide) hnumbers).1.1 h).2.2 "x"
    nomatch hx
  · exact hsame.2 _ (List.reverse_perm bs).symm

end CacheKey
end Formulary
