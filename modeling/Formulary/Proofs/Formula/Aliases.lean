import Formulary.Formula.Alias
import Formulary.Proofs.Lookup

/-!
# Aliases are distinct

Aliases are numbered in the order in which they are given out (`numbered_aliased`), so that no two
symbols share one (`lookup_injective`).
-/

namespace Formulary.Formula.Aliases

/-- Aliases that are numbered from zero in their order. -/
def Numbered (a : Aliases) : Prop :=
  a.map (·.2) = (List.range a.length).map fun i => "_s" ++ toString i

/-- The next alias may be given to one more symbol. -/
lemma Numbered.concat {a : Aliases} (h : Numbered a) (s : String) :
    Numbered (a ++ [(s, a.next)]) := by
  unfold Numbered at h ⊢
  simp [h, List.range_succ, next]

/-- Replacing symbols by aliases keeps the aliases numbered. -/
lemma numbered_aliasPieces {a : Aliases} (h : Numbered a) (ps : List Piece) :
    Numbered (aliasPieces a ps).2 := by
  induction ps generalizing a with
  | nil => exact h
  | cons p ps ih =>
    refine ih ?_
    cases p with
    | other c => exact h
    | symbol name =>
      dsimp only
      split
      · exact h
      · split
        · exact h
        · exact h.concat _

/-- The aliases of a text are numbered. -/
theorem numbered_aliased (s : List Char) : Numbered (aliased s).2 :=
  numbered_aliasPieces (a := []) rfl _

/-- Aliases with different numbers are different. -/
lemma alias_injective {i j : Nat} (h : "_s" ++ toString i = "_s" ++ toString j) : i = j := by
  have h := congrArg String.toList h
  simp only [String.toList_append, List.append_cancel_left_eq, Nat.toString_eq_repr,
    Nat.toList_repr] at h
  rw [← Nat.ofDigitChars_ten_toDigits (n := i), h, Nat.ofDigitChars_ten_toDigits]

/-- No alias is given twice. -/
lemma Numbered.nodup {a : Aliases} (h : Numbered a) : (a.map (·.2)).Nodup := by
  rw [h]
  exact List.nodup_range.map fun _ _ => alias_injective

/-- No two symbols have the same alias. -/
theorem Numbered.lookup_injective {a : Aliases} (h : Numbered a) {s t x : String}
    (hs : a.lookup s = some x) (ht : a.lookup t = some x) : s = t := by
  exact congrArg (·.1) (List.inj_on_of_nodup_map h.nodup (mem_of_lookup hs) (mem_of_lookup ht) rfl)

/-- The symbol of an alias. -/
lemma Numbered.symbolOf?_of_lookup {a : Aliases} (ha : a.Numbered) {n y : String}
    (hn : a.lookup n = some y) : a.symbolOf? y = some n := by
  have hsome : (a.find? (·.2 == y)).isSome :=
    List.find?_isSome.2 ⟨_, mem_of_lookup hn, by simp⟩
  obtain ⟨e, he⟩ := Option.isSome_iff_exists.1 hsome
  have hy : e.2 = y := by simpa using List.find?_some he
  have heq : e = (n, y) :=
    List.inj_on_of_nodup_map ha.nodup (List.mem_of_find?_eq_some he) (mem_of_lookup hn) hy
  rw [symbolOf?, he, heq]
  rfl

end Formulary.Formula.Aliases
