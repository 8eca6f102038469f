import Formulary.ClosedForm.Reading
import Formulary.Numeric.Residual
import Formulary.Proofs.Formula.Insertion
import Formulary.Proofs.Formula.Restoring
import Formulary.Proofs.Sequence

/-!
# Which symbols occur

A value that is written in place of a name contains no symbol, and it neither hides nor makes one
beside it. So a substitution leaves the other symbols of a text as they are (`symbolsFrom_substitute`),
and whether the unknown occurs can be told from the formula before and after the known values are
written in (`occurs_substituted`).
-/

namespace Formulary.Formula

open Formulary.Text Formulary.Number

/-- The symbols of a text that get aliases, in the order in which they stand in it. -/
def symbolsFrom (blocked : Bool) (s : List Char) : List String :=
  (piecesFrom blocked s).filterMap Piece.renamable?

variable {blocked inside : Bool} {s t u v : List Char} {c : Char} {n x : String} {y : Float}

/-- A character that does not adhere belongs to no symbol. -/
lemma symbolsFrom_stop (hc : adheres c = false) :
    symbolsFrom blocked (u ++ c :: v) = symbolsFrom blocked u ++ symbolsFrom (blocksSymbol c) v := by
  simp only [adheres, Bool.or_eq_false_iff, beq_eq_false_iff_ne] at hc
  rw [symbolsFrom, piecesFrom_stop hc.1 hc.2, List.filterMap_append]
  rfl

/-- A numeric text has no symbols, also where it continues a run. -/
lemma symbolsFrom_of_isNumeric (h : isNumeric inside s) (hb : inside → blocked) :
    symbolsFrom blocked s = [] := by
  induction s generalizing inside blocked with
  | nil => simp [symbolsFrom, piecesFrom]
  | cons c s ih =>
    simp only [isNumeric, Bool.and_eq_true, Bool.or_eq_true, Bool.not_eq_true'] at h
    have hstart : ¬ ((!blocked && isWordStart c) = true) := by
      simp only [isWordStart, Bool.and_eq_true, Bool.not_eq_true']
      rintro ⟨hfree, hword, hdigit⟩
      obtain (hinside | hadheres) | hd := h.1
      · rw [hb hinside] at hfree
        cases hfree
      · simp [adheres, hword] at hadheres
      · rw [hdigit] at hd
        cases hd
    have hnext : adheres c → blocksSymbol c := fun hc => by simp [blocksSymbol_eq, hc]
    rw [symbolsFrom, piecesFrom, if_neg hstart]
    exact ih h.2 hnext

/-- A finite value has no symbols. -/
lemma symbolsFrom_literal (hy : y.isFinite) : symbolsFrom blocked (literal y) = [] := by
  obtain ⟨negative, m, e, hfinite⟩ := ofFloat_of_isFinite hy
  exact symbolsFrom_of_isNumeric (isNumeric_literal hfinite) nofun

/-- Adhering characters are numeric where they continue a text that is. -/
lemma isNumeric_of_adheres (h : ∀ c ∈ s, adheres c) : isNumeric true s := by
  induction s with
  | nil => rfl
  | cons c s ih =>
    obtain ⟨hc, hs⟩ := List.forall_mem_cons.1 h
    simpa [isNumeric, hc] using ih hs

/-- A name has no symbol but itself. -/
lemma symbolsFrom_name (hn : isSymbol n.toList) :
    (symbolsFrom blocked n.toList).filter (· ≠ n) = [] := by
  cases blocked with
  | true =>
    rw [symbolsFrom_of_isNumeric (isNumeric_of_adheres (isName_of_isSymbol hn).2) id]
    rfl
  | false =>
    rw [symbolsFrom, ← pieces, pieces_symbol hn]
    by_cases hr : isReserved n <;> simp [Piece.renamable?, hr]

/-- A text begins with a run of adhering characters, behind which it ends or another one stands. -/
lemma exists_run (s : List Char) : ∃ w t, s = w ++ t ∧ (∀ c ∈ w, adheres c) ∧
    (t = [] ∨ ∃ c v, t = c :: v ∧ adheres c = false) := by
  refine ⟨s.takeWhile adheres, s.dropWhile adheres, List.takeWhile_append_dropWhile.symm,
    fun _ => List.mem_takeWhile_imp, ?_⟩
  cases ht : s.dropWhile adheres with
  | nil => exact .inl rfl
  | cons c v =>
    refine .inr ⟨c, v, rfl, ?_⟩
    simpa [ht] using head?_dropWhile (p := adheres) (l := s)

/-- A run of adhering characters keeps its symbols, unless it is the name. -/
lemma symbolsFrom_substitute_run (hn : isSymbol n.toList) (hy : y.isFinite)
    (hs : ∀ c ∈ s, adheres c) : (symbolsFrom blocked (substitute s n y)).filter (· ≠ n) =
      (symbolsFrom blocked s).filter (· ≠ n) := by
  have hname := isName_of_isSymbol hn
  by_cases hsn : s = n.toList
  · have hliteral : substitute s n y = literal y := by
      rw [hsn, substitute_eq hname, runs_name hname]
      simp
    rw [hliteral, symbolsFrom_literal hy, hsn, symbolsFrom_name hn]
    rfl
  · have hkept : substitute s n y = s := by
      obtain rfl | hne := eq_or_ne s []
      · exact substitute_of_not_mem hname (by simp [runs])
      · exact substitute_name hname ⟨hne, hs⟩ hsn
    rw [hkept]

/-- A substitution leaves all other symbols as they are. -/
theorem symbolsFrom_substitute (hn : isSymbol n.toList) (hy : y.isFinite) (s : List Char) :
    (symbolsFrom blocked (substitute s n y)).filter (· ≠ n) =
      (symbolsFrom blocked s).filter (· ≠ n) := by
  have hname := isName_of_isSymbol hn
  induction hlength : s.length using Nat.strong_induction_on generalizing s blocked with
  | _ length ih =>
    obtain ⟨w, t, rfl, hw, rfl | ⟨c, v, rfl, hc⟩⟩ := exists_run s
    · rw [List.append_nil]
      exact symbolsFrom_substitute_run hn hy hw
    · have hsplit : substitute (w ++ c :: v) n y = substitute w n y ++ c :: substitute v n y := by
        rw [substitute_append hname (apart_of_head (by simpa using hc)), ← List.singleton_append,
          substitute_append hname (apart_single hc), substitute_single hname hc,
          List.singleton_append]
      have hv : v.length < length := by
        rw [← hlength, List.length_append, List.length_cons]
        omega
      rw [hsplit, symbolsFrom_stop hc, symbolsFrom_stop hc, List.filter_append, List.filter_append,
        symbolsFrom_substitute_run hn hy hw, ih _ hv v rfl]

/-- Bindings of symbols other than the given one to finite values. -/
def BindsOthers (x : String) (bindings : List (String × Float)) : Prop :=
  ∀ b ∈ bindings, isSymbol b.1.toList ∧ b.2.isFinite ∧ b.1 ≠ x

/-- A symbol that has no value occurs after the substitutions if it did before. -/
lemma mem_symbolsFrom_substituteAll {bindings : List (String × Float)}
    (h : BindsOthers x bindings) (s : List Char) :
    x ∈ symbolsFrom blocked (substituteAll s bindings) ↔ x ∈ symbolsFrom blocked s := by
  have hstep : ∀ {b : String × Float}, isSymbol b.1.toList ∧ b.2.isFinite ∧ b.1 ≠ x →
      ∀ s, x ∈ symbolsFrom blocked (substitute s b.1 b.2) ↔ x ∈ symbolsFrom blocked s := by
    rintro b ⟨hn, hy, hne⟩ s
    have hfilter : ∀ l : List String, x ∈ l.filter (· ≠ b.1) ↔ x ∈ l := by
      simp [List.mem_filter, hne.symm]
    rw [← hfilter, symbolsFrom_substitute hn hy, hfilter]
  have hsorted : BindsOthers x (longestFirst bindings) := fun b hb =>
    h b ((List.mergeSort_perm _ _).mem_iff.1 hb)
  rw [substituteAll]
  generalize longestFirst bindings = l at hsorted
  induction l generalizing s with
  | nil => rfl
  | cons b l ih =>
    obtain ⟨hb, hl⟩ := List.forall_mem_cons.1 hsorted
    exact (ih _ hl).trans (hstep hb s)

/-- The symbols of a text are those that have aliases. -/
lemma mem_symbolsFrom_iff : x ∈ symbolsFrom false s ↔ x ∈ (aliased s).2.map (·.1) := by
  rw [aliased, keys_aliasPieces, symbolsFrom, pieces]
  simp [List.removeAll]

end Formulary.Formula

namespace Formulary.ClosedForm

open Formulary.Formula Formulary.Numeric

variable {formula unknown : String} {bindings : List (String × Float)} {text : List Char}

/-- A formula with two sides has a residual. -/
lemma residual_of_sides {s u v : List Char} (h : sides s = .ok (u, v)) :
    ∃ text, Formula.residual s = .ok text := by
  rw [Formula.residual, h]
  exact ⟨_, rfl⟩

/-- Where nothing is read, the unknown has no alias. -/
lemma lookup_of_readFormula (ht : Formula.residual formula.toList = .ok text)
    (h : readFormula formula bindings unknown = .ok none) :
    (aliased (substituteAll text bindings)).2.lookup unknown = none := by
  simp only [readFormula, ht, pure_bind] at h
  split at h
  · cases h
  · obtain ⟨reading, -, h⟩ := bind_eq_ok.1 h
    simpa [pure, Except.pure] using h

/-- A residual is refused for an absent unknown if the unknown has no alias. -/
lemma build_absent_iff (ht : Formula.residual formula.toList = .ok text) :
    Residual.build formula bindings unknown = .error .absentUnknown ↔
      (aliased text).2.lookup unknown = none := by
  simp only [Residual.build, ht, pure_bind]
  cases (aliased text).2.lookup unknown with
  | none => simp [throw, throwThe, MonadExceptOf.throw]
  | some x =>
    cases Expression.compile (aliased text).1 with
    | error e => cases e <;> simp [throw, throwThe, MonadExceptOf.throw, bind, Except.bind]
    | ok e =>
      dsimp only
      split <;> simp [pure, Except.pure, throw, throwThe, MonadExceptOf.throw]

/--
After known values are written in, the unknown has an alias exactly if it has one in the residual as it
is. So a formula that is read without finding its unknown has no residual to search, because the
unknown is absent.
-/
theorem occurs_substituted {u v : List Char} (hs : sides formula.toList = .ok (u, v))
    (hbindings : BindsOthers unknown bindings) : ∃ text, Formula.residual formula.toList = .ok text ∧
      (unknown ∈ (aliased (substituteAll text bindings)).2.map (·.1) ↔
        unknown ∈ (aliased text).2.map (·.1)) ∧
      (Residual.build formula bindings unknown = .error .absentUnknown ↔
        (aliased (substituteAll text bindings)).2.lookup unknown = none) ∧
      (readFormula formula bindings unknown = .ok none →
        Residual.build formula bindings unknown = .error .absentUnknown) := by
  obtain ⟨text, ht⟩ := residual_of_sides hs
  have hkeys : unknown ∈ (aliased (substituteAll text bindings)).2.map (·.1) ↔
      unknown ∈ (aliased text).2.map (·.1) := by
    rw [← mem_symbolsFrom_iff, ← mem_symbolsFrom_iff, mem_symbolsFrom_substituteAll hbindings]
  have habsent : Residual.build formula bindings unknown = .error .absentUnknown ↔
      (aliased (substituteAll text bindings)).2.lookup unknown = none := by
    rw [build_absent_iff ht, lookup_eq_none_iff_keys, lookup_eq_none_iff_keys, hkeys]
  exact ⟨text, ht, hkeys, habsent, fun h => habsent.2 (lookup_of_readFormula ht h)⟩

/--
The unknown stands between a value with an exponent and a primed name; in the second formula it is
spelled like a part of a numeral.
-/
theorem occurs_substituted_primed :
    BindsOthers "x" [("F", -1e-7), ("F'", 2.0)] ∧
      "x" ∈ (aliased (substituteAll "(F') - (F*x*F')".toList [("F", -1e-7), ("F'", 2.0)])).2.map (·.1) ∧
    BindsOthers "e5" [("y", 1e-5), ("z", 2.0)] ∧
      Residual.build "y = 1e5*z" [("y", 1e-5), ("z", 2.0)] "e5" = .error .absentUnknown := by
  have hx : BindsOthers "x" [("F", -1e-7), ("F'", 2.0)] := by
    simp only [BindsOthers, List.forall_mem_cons]
    decide +kernel
  have he : BindsOthers "e5" [("y", 1e-5), ("z", 2.0)] := by
    simp only [BindsOthers, List.forall_mem_cons]
    decide +kernel
  have hsides : sides "F' = F*x*F'".toList = .ok ("F'".toList, "F*x*F'".toList) := rfl
  have hsides' : sides "y = 1e5*z".toList = .ok ("y".toList, "1e5*z".toList) := rfl
  have hresidual : Formula.residual "F' = F*x*F'".toList = .ok "(F') - (F*x*F')".toList := rfl
  have hresidual' : Formula.residual "y = 1e5*z".toList = .ok "(y) - (1e5*z)".toList := rfl
  obtain ⟨text, ht, hkeys, -⟩ := occurs_substituted hsides hx
  obtain ⟨text', ht', hkeys', habsent, -⟩ := occurs_substituted hsides' he
  rw [hresidual, Except.ok.injEq] at ht
  rw [hresidual', Except.ok.injEq] at ht'
  subst ht ht'
  refine ⟨hx, hkeys.2 ?_, he, habsent.2 (lookup_eq_none_iff_keys.2 (mt hkeys'.1 ?_))⟩
  · rw [aliased_eq]
    decide +kernel
  · rw [aliased_eq]
    decide +kernel

end Formulary.ClosedForm
