import Formulary.Proofs.Expression.Scope
import Formulary.Proofs.Formula.Aliases
import Formulary.Proofs.Numeric.Residual

/-!
# The order of bindings in a residual

A residual binds the aliases of the bound symbols. They are distinct, so that the order of the
bindings changes neither the residual as a function (`build_perm`) nor the search for its root
(`solve_perm`).
-/

namespace Formulary.Numeric

open Formulary.Formula

variable {bindings bindings' : List (String × Float)}

namespace Residual

/-- The values of aliases, from those of symbols. -/
def scopeOf (a : Aliases) (bindings : List (String × Float)) : Expression.Scope :=
  bindings.filterMap fun (name, v) => (a.lookup name).map (·, v)

/-- A scope binds the aliases of the names that are bound. -/
lemma mem_scopeOf {a : Aliases} {x : String} {v : Float} :
    (x, v) ∈ scopeOf a bindings ↔ ∃ name, (name, v) ∈ bindings ∧ a.lookup name = some x := by
  simp only [scopeOf, List.mem_filterMap, Option.map_eq_some_iff, Prod.mk.injEq, Prod.exists]
  constructor
  · rintro ⟨name, w, hmem, y, hy, rfl, rfl⟩
    exact ⟨name, hmem, hy⟩
  · rintro ⟨name, hmem, hx⟩
    exact ⟨name, v, hmem, x, hx, rfl, rfl⟩

/-- A scope begins with the alias of the first name, if it has one. -/
lemma scopeOf_cons (a : Aliases) (name : String) (v : Float) :
    scopeOf a ((name, v) :: bindings) =
      match a.lookup name with
      | none => scopeOf a bindings
      | some x => (x, v) :: scopeOf a bindings := by
  rw [scopeOf, List.filterMap_cons]
  dsimp only
  cases a.lookup name with
  | none => rfl
  | some x => rfl

/-- No alias is bound twice. -/
lemma nodup_scopeOf {a : Aliases} (ha : a.Numbered) (hnd : (bindings.map (·.1)).Nodup) :
    ((scopeOf a bindings).map (·.1)).Nodup := by
  induction bindings with
  | nil => exact List.nodup_nil
  | cons b bindings ih =>
    obtain ⟨name, v⟩ := b
    rw [List.map_cons, List.nodup_cons] at hnd
    rw [scopeOf_cons]
    cases hx : a.lookup name with
    | none => exact ih hnd.2
    | some x =>
      refine List.nodup_cons.2 ⟨?_, ih hnd.2⟩
      rw [List.mem_map]
      rintro ⟨⟨y, w⟩, hmem, rfl⟩
      obtain ⟨m, hm, hy⟩ := mem_scopeOf.1 hmem
      cases ha.lookup_injective hx hy
      exact hnd.1 (List.mem_map.2 ⟨_, hm, rfl⟩)

/-- What a scope finds does not depend on the order of the bindings. -/
lemma lookup_scopeOf_perm {a : Aliases} (ha : a.Numbered) (hnd : (bindings.map (·.1)).Nodup)
    (hp : bindings.Perm bindings') (x : String) :
    (scopeOf a bindings).lookup x = (scopeOf a bindings').lookup x :=
  lookup_perm (nodup_scopeOf ha hnd) (hp.filterMap _) x

/-- The residual as a function does not depend on the order of the bindings. -/
theorem build_perm (hnd : (bindings.map (·.1)).Nodup) (hp : bindings.Perm bindings')
    (formula unknown : String) :
    (build formula bindings unknown).map valueAt = (build formula bindings' unknown).map valueAt := by
  have hscope (s : List Char) (x : String) :=
    lookup_scopeOf_perm (Aliases.numbered_aliased s) hnd hp x
  simp only [build]
  cases residual formula.toList with
  | error e => rfl
  | ok text =>
    simp only [pure_bind]
    cases (aliased text).2.lookup unknown with
    | none => rfl
    | some x =>
      cases Expression.compile (aliased text).1 with
      | error err => cases err <;> rfl
      | ok e =>
        have hvalue : valueAt ⟨e, x, scopeOf (aliased text).2 bindings⟩ =
            valueAt ⟨e, x, scopeOf (aliased text).2 bindings'⟩ := by
          funext y
          refine Expression.value_congr (fun n => ?_) e
          simp only [List.lookup_cons, hscope]
        simp only [scopeOf] at hscope hvalue
        simp only [hscope]
        split
        · exact congrArg Except.ok hvalue
        · rfl

end Residual

/-- The search for a root does not depend on the order of the bindings. -/
theorem solve_perm (hnd : (bindings.map (·.1)).Nodup) (hp : bindings.Perm bindings')
    (s : Settings Float) (formula unknown : String) :
    solve s formula bindings unknown = solve s formula bindings' unknown := by
  have h := Residual.build_perm hnd hp formula unknown
  simp only [solve]
  cases hb : Residual.build formula bindings unknown with
  | error e =>
    cases hb' : Residual.build formula bindings' unknown with
    | error e' =>
      rw [hb, hb'] at h
      cases h
      rfl
    | ok r' =>
      rw [hb, hb'] at h
      cases h
  | ok r =>
    cases hb' : Residual.build formula bindings' unknown with
    | error e' =>
      rw [hb, hb'] at h
      cases h
    | ok r' =>
      rw [hb, hb'] at h
      have hvalue : r.valueAt = r'.valueAt := Except.ok.inj h
      simp only [hvalue]

end Formulary.Numeric
