import Formulary.Numeric.Solve
import Formulary.Proofs.Expression.Equality
import Formulary.Proofs.Numeric.Watched

/-!
# Residuals that were built

What is known of a residual from the fact that it was built (`build_eq_ok`): all its names have
values, so that only parts and indices can interrupt it (`valueAt_interrupted`), and a search for its
root (`solve_interrupted`).
-/

namespace Formulary

open Formulary.Formula

namespace Numeric.Residual

/-- Residuals can be compared. -/
instance : DecidableEq Residual := fun r r' =>
  decidable_of_iff (r.expression = r'.expression ∧ r.unknown = r'.unknown ∧ r.scope = r'.scope) <| by
    cases r
    cases r'
    simp

/-- What a residual is built of, and that it leaves no name without a value. -/
lemma build_eq_ok {formula : String} {bindings : List (String × Float)} {unknown : String}
    {r : Residual} :
    build formula bindings unknown = .ok r ↔
      ∃ text, residual formula.toList = .ok text ∧
        (aliased text).2.lookup unknown = some r.unknown ∧
        Expression.compile (aliased text).1 = .ok r.expression ∧
        r.scope = bindings.filterMap (fun (name, v) => ((aliased text).2.lookup name).map (·, v)) ∧
        ∀ n ∈ r.expression.names, Value.builtin? n = none →
          n = r.unknown ∨ (r.scope.lookup n).isSome := by
  simp only [build]
  cases ht : residual formula.toList with
  | error e => simp [throw, throwThe, MonadExceptOf.throw, bind, Except.bind]
  | ok text =>
    simp only [pure_bind, Except.ok.injEq, exists_eq_left']
    cases hx : (aliased text).2.lookup unknown with
    | none => simp [throw, throwThe, MonadExceptOf.throw]
    | some x =>
      cases he : Expression.compile (aliased text).1 with
      | error err => cases err <;> simp [throw, throwThe, MonadExceptOf.throw, bind, Except.bind]
      | ok e =>
        simp only [Option.some.injEq, Except.ok.injEq]
        split
        case isTrue hu =>
          simp only [List.isEmpty_iff, List.filter_eq_nil_iff, Expression.mem_freeNames] at hu
          constructor
          · intro h
            cases h
            refine ⟨rfl, rfl, rfl, fun n hn hb => ?_⟩
            have := hu n ⟨hn, hb⟩
            by_cases hnx : n = x
            · exact .inl hnx
            · exact .inr (by simpa [hnx, Option.isSome_iff_ne_none] using this)
          · obtain ⟨e', x', scope⟩ := r
            rintro ⟨rfl, rfl, rfl, -⟩
            rfl
        case isFalse hu =>
          refine ⟨nofun, ?_⟩
          obtain ⟨e', x', scope⟩ := r
          rintro ⟨rfl, rfl, rfl, hbound⟩
          refine absurd ?_ hu
          simp only [List.isEmpty_iff, List.filter_eq_nil_iff, Expression.mem_freeNames]
          rintro n ⟨hn, hb⟩
          obtain rfl | hsome := hbound n hn hb
          · simp
          · simp [Option.isSome_iff_ne_none.1 hsome]

/-- Only a part or an index interrupts a residual that was built. -/
lemma valueAt_interrupted {formula : String} {bindings : List (String × Float)} {unknown : String}
    {r : Residual} (h : build formula bindings unknown = .ok r) {x : Float} {i : Interruption}
    (hi : r.valueAt x = .error i) :
    i = .noPart ∧ (∃ e s, .part e s ∈ r.expression.subexpressions) ∨
      i = .outOfRange ∧ ∃ e j, .index e j ∈ r.expression.subexpressions := by
  obtain ⟨_, -, -, -, -, hbound⟩ := build_eq_ok.1 h
  have hv : r.expression.eval ((r.unknown, x) :: r.scope) = .error (.interrupted i) := by
    simp only [valueAt, Expression.value] at hi
    split at hi
    · cases hi
    · cases hi
    · cases hi
      assumption
  have hc := (Expression.eval_interrupted _).1 _ _ hv
  cases i with
  | noPart => exact .inl ⟨rfl, hc⟩
  | outOfRange => exact .inr ⟨rfl, hc⟩
  | unbound n =>
    obtain ⟨hn, hs, hb⟩ := hc
    obtain rfl | hsome := hbound n (Expression.name_mem_names n _ hn) hb
    · simp at hs
    · rw [List.lookup_cons] at hs
      split at hs
      · cases hs
      · rw [hs] at hsome
        cases hsome

/-- The value of a residual, no number where there is none. -/
def totalValueAt (r : Residual) (x : Float) : Float :=
  match r.valueAt x with
  | .ok y => y
  | .error _ => 0.0 / 0.0

/-- A search is interrupted as the residual is at some point. -/
lemma search_interrupted {s : Settings Float} {r : Residual} {i : Interruption}
    (h : search s r.valueAt = .error i) : ∃ x, r.valueAt x = .error i := by
  have hfollows : Follows r.valueAt (search s r.valueAt) (search s (recorded r.totalValueAt)) :=
    search_follows fun x y hxy => by simp [totalValueAt, hxy]
  obtain ⟨seen, -, ⟨-, hok⟩ | ⟨x, -, j, hj, he⟩⟩ := hfollows []
  · rw [h] at hok
    cases hok
  · rw [h] at he
    cases he
    exact ⟨x, hj⟩

/-- What a numeric solution is interrupted by interrupts the residual at some point. -/
lemma solve_interrupted {s : Settings Float} {formula : String} {bindings : List (String × Float)}
    {unknown : String} {i : Interruption}
    (h : (Numeric.solve s formula bindings unknown).result = .error (.interrupted i)) :
    ∃ r x, build formula bindings unknown = .ok r ∧ r.valueAt x = .error i := by
  simp only [Numeric.solve] at h
  cases hb : build formula bindings unknown with
  | error e =>
    rw [hb] at h
    cases h
  | ok r =>
    rw [hb] at h
    dsimp only at h
    cases hs : search s r.valueAt with
    | ok o =>
      rw [hs] at h
      simp only [Search.report] at h
      split at h <;> cases h
    | error j =>
      rw [hs] at h
      cases h
      obtain ⟨x, hx⟩ := search_interrupted hs
      exact ⟨r, x, rfl, hx⟩

/-- A numeric solution divides by no slope of zero if such slopes count as flat. -/
lemma solve_ne_zeroSlope {s : Settings Float} {formula : String} {bindings : List (String × Float)}
    {unknown : String} (hflat : 0.0 < s.flatSlope) :
    (Numeric.solve s formula bindings unknown).result ≠ .error .zeroSlope := by
  intro h
  simp only [Numeric.solve] at h
  split at h
  · cases h
  · split at h
    · rename_i o hs
      have hne := search_ne_zeroSlope (flat_of_pos hflat) hs
      simp only [Search.report] at h
      split at h
      · cases h
      · cases h
      · cases h
      · exact hne ‹_›
    · cases h

end Numeric.Residual
end Formulary
