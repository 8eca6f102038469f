import Formulary.ClosedForm.Simplification
import Formulary.Proofs.Calculator.Bindings
import Formulary.Proofs.Number.Equality
import Formulary.Proofs.Numeric.Convergence
import Formulary.Proofs.Numeric.Order

/-!
# The cache as seen from outside

Whatever was asked before, an answer from the cache is one that some earlier request with the same
key would get without a cache (`cacheAfter_truthful`). It is the answer to the request itself if all
variables are symbols and no zero is bound with the other sign in such a request
(`solve_transparent`): that is all that a key does not tell apart.
-/

namespace Formulary

open Formulary.Formula Formulary.Number Formulary.Numeric

namespace CacheKey

/-- Values that are the same for a key are equal, but for the signs of zeros. -/
lemma sameValue_eq {x y : Float} (h : sameValue x y)
    (hz : (x == 0.0) = true → (y == 0.0) = true → x = y) : x = y := by
  simp only [sameValue, Bool.or_eq_true, Bool.and_eq_true] at h
  obtain h | ⟨hx, hy⟩ := h
  · obtain h | ⟨hx, hy⟩ := eq_or_zero_of_beq h
    · exact h
    · exact hz hx hy
  · exact eq_of_isNaN hx hy

/-- Rows of bindings that are the same are equal, but for the signs of zeros. -/
lemma sameBindings_eq {bs cs : List (String × Float)} (h : sameBindings bs cs)
    (hz : ∀ n x y, (n, x) ∈ bs → (n, y) ∈ cs → (x == 0.0) = true → (y == 0.0) = true → x = y) :
    bs = cs := by
  induction bs generalizing cs with
  | nil =>
    cases cs with
    | nil => rfl
    | cons c cs => cases h
  | cons b bs ih =>
    cases cs with
    | nil => cases h
    | cons c cs =>
      obtain ⟨n, x⟩ := b
      obtain ⟨m, y⟩ := c
      simp only [sameBindings, Bool.and_eq_true, beq_iff_eq] at h
      obtain ⟨⟨rfl, hxy⟩, hrest⟩ := h
      cases sameValue_eq hxy (hz n x y (by simp) (by simp))
      rw [ih hrest fun k v w hv hw => hz k v w (by simp [hv]) (by simp [hw])]

/-- Bindings are the same as themselves, even where one of them is no number. -/
lemma sameBindings_self (bs : List (String × Float)) : sameBindings bs bs := by
  induction bs with
  | nil => rfl
  | cons b bs ih =>
    obtain ⟨n, x⟩ := b
    have hx : sameValue x x := by
      by_cases hn : x.isNaN
      · rw [sameValue, hn]
        exact Bool.or_true _
      · rw [sameValue, beq_self hn]
        rfl
    simp [sameBindings, hx, ih]

end CacheKey

namespace Cache

/-- A solution under a new key is put at the end. -/
lemma putEntry_of_find?_none {entries : List (CacheKey × Cached)} {key : CacheKey} {v : Cached}
    (h : (entries.find? fun e => e.1.same key) = none) :
    putEntry key v entries = entries ++ [(key, v)] := by
  induction entries with
  | nil => rfl
  | cons e entries ih =>
    simp only [List.find?_cons] at h
    split at h
    · cases h
    · rename_i he
      rw [putEntry, if_neg (by simp [he]), ih h, List.cons_append]

end Cache

/-- A call of a calculator. -/
structure Call where
  equation : EquationRef
  inputs : Table Datum
  unknown : String

/-- A request to a calculator. -/
inductive Request where
  | solve (k : Call)
  | clear

/-- What is asked by a call that passes its checks. -/
structure Question where
  equation : Equation
  unknown : String
  bindings : Table Float

/-- The key of a question. -/
def Question.key (q : Question) : CacheKey := .of q.equation.formula q.unknown q.bindings

/-- That no zero is bound to a name in two questions with different signs. -/
def Question.SameZeros (q q' : Question) : Prop :=
  ∀ n x y, (n, x) ∈ q.bindings → (n, y) ∈ q'.bindings →
    (x == 0.0) = true → (y == 0.0) = true → x = y

/-- Questions with the same key differ in the order of their bindings and the signs of zeros. -/
lemma Question.perm_of_key {q q' : Question} (h : q.key.same q'.key) (hz : q.SameZeros q') :
    q.equation.formula = q'.equation.formula ∧ q.unknown = q'.unknown ∧
      q.bindings.Perm q'.bindings := by
  simp only [key, CacheKey.of, CacheKey.same, Bool.and_eq_true, beq_iff_eq] at h
  obtain ⟨⟨hf, hu⟩, hb⟩ := h
  have hsorted := CacheKey.sameBindings_eq hb fun n x y hx hy =>
    hz n x y (List.mem_mergeSort.1 hx) (List.mem_mergeSort.1 hy)
  have hp := List.mergeSort_perm q.bindings fun a b => a.1 ≤ b.1
  rw [hsorted] at hp
  exact ⟨hf, hu, hp.symm.trans (List.mergeSort_perm _ _)⟩

/-- A key is the same as itself. -/
lemma Question.key_same_self (q : Question) : q.key.same q.key := by
  simp [CacheKey.same, CacheKey.sameBindings_self]

/-- The value of an answer and whether the search converged. -/
def Stop.answered? : Except Stop Solution → Option Cached
  | .ok s => some ⟨s.value, s.converged⟩
  | .error _ => none

namespace Calculator

/-- The outcome of a call, and the cache after it. -/
def call (c : Calculator) (cache : Cache) (k : Call) : Except Stop Solution × Cache :=
  c.solve cache k.equation k.inputs k.unknown

/-- The cache after requests. -/
def cacheAfter (c : Calculator) : Cache → List Request → Cache
  | cache, [] => cache
  | cache, .solve k :: rs => c.cacheAfter (c.call cache k).2 rs
  | cache, .clear :: rs => c.cacheAfter cache.clear rs

/-- The question that a call asks. -/
def question? (c : Calculator) (k : Call) : Option Question := do
  let e ← (c.equation k.equation).toOption
  let bindings ← (c.bindings e k.inputs k.unknown).toOption
  return ⟨e, k.unknown, bindings⟩

/-- The answer to a question that is not in the cache. -/
def fresh (c : Calculator) (q : Question) : Except Stop Solution :=
  c.compute (String.ofList (canonical q.equation.formula.toList)) q.bindings q.unknown

variable {c : Calculator} {cache : Cache}

/-- A call that asks nothing fails and leaves the cache as it is. -/
lemma call_of_none {k : Call} (h : c.question? k = none) :
    Stop.answered? (c.call cache k).1 = none ∧ (c.call cache k).2 = cache := by
  simp only [question?, Option.bind_eq_bind] at h
  simp only [call, solve]
  cases he : c.equation k.equation with
  | error f => exact ⟨rfl, rfl⟩
  | ok e =>
    dsimp only
    cases hb : c.bindings e k.inputs k.unknown with
    | error f => exact ⟨rfl, rfl⟩
    | ok bindings => simp [he, hb, Except.toOption] at h

/-- A call that asks a question is answered as the question is. -/
lemma call_of_some {k : Call} {q : Question} (h : c.question? k = some q) :
    c.call cache k = c.answer cache q.equation q.bindings q.unknown := by
  simp only [question?, Option.bind_eq_bind] at h
  simp only [call, solve]
  cases he : c.equation k.equation with
  | error f => simp [he, Except.toOption] at h
  | ok e =>
    dsimp only
    cases hb : c.bindings e k.inputs k.unknown with
    | error f => simp [he, hb, Except.toOption] at h
    | ok bindings =>
      simp only [he, hb, Except.toOption, Option.bind_some, Option.pure_def, Option.some.injEq] at h
      subst h
      rfl

/-- A question is looked up, or else computed. -/
lemma answered?_answer (q : Question) :
    Stop.answered? (c.answer cache q.equation q.bindings q.unknown).1 =
      (cache.find? q.key).or (Stop.answered? (c.fresh q)) := by
  simp only [answer, Cache.get, ← Question.key.eq_1, fresh]
  cases cache.find? q.key with
  | some v => rfl
  | none =>
    dsimp only
    cases c.compute (String.ofList (canonical q.equation.formula.toList)) q.bindings q.unknown with
    | ok s => rfl
    | error e => rfl

/-- What is computed is kept. -/
lemma entries_answer {q : Question} {v : Cached} (hf : cache.find? q.key = none)
    (hs : Stop.answered? (c.fresh q) = some v) :
    (c.answer cache q.equation q.bindings q.unknown).2.entries = cache.entries ++ [(q.key, v)] := by
  simp only [answer, Cache.get, ← Question.key.eq_1, hf]
  rw [fresh] at hs
  cases hc : c.compute (String.ofList (canonical q.equation.formula.toList)) q.bindings
      q.unknown with
  | ok s =>
    rw [hc] at hs
    cases hs
    simp only [Cache.find?, Option.map_eq_none_iff] at hf
    exact Cache.putEntry_of_find?_none hf
  | error e =>
    rw [hc] at hs
    cases hs

/-- A new entry of the cache holds the answer to the question that it was asked. -/
lemma mem_entries_answer {q : Question} {en : CacheKey × Cached}
    (h : en ∈ (c.answer cache q.equation q.bindings q.unknown).2.entries) :
    en ∈ cache.entries ∨ q.key = en.1 ∧ Stop.answered? (c.fresh q) = some en.2 := by
  cases hf : cache.find? q.key with
  | some v =>
    simp only [answer, Cache.get, ← Question.key.eq_1, hf] at h
    exact .inl h
  | none =>
    cases hs : Stop.answered? (c.fresh q) with
    | some v =>
      rw [entries_answer hf hs, List.mem_append, List.mem_singleton] at h
      obtain h | rfl := h
      · exact .inl h
      · exact .inr ⟨rfl, rfl⟩
    | none =>
      rw [fresh] at hs
      simp only [answer, Cache.get, ← Question.key.eq_1, hf] at h
      cases hc : c.compute (String.ofList (canonical q.equation.formula.toList)) q.bindings
          q.unknown with
      | ok s =>
        rw [hc] at hs
        cases hs
      | error e =>
        rw [hc] at h
        exact .inl h

/-- The entries of a cache are answers to questions that were asked before. -/
def Truthful (c : Calculator) (asked : List Request) (cache : Cache) : Prop :=
  ∀ en ∈ cache.entries, ∃ k, .solve k ∈ asked ∧
    ∃ q, c.question? k = some q ∧ q.key = en.1 ∧ Stop.answered? (c.fresh q) = some en.2

/-- One call keeps a cache truthful. -/
lemma Truthful.call {asked : List Request} (h : c.Truthful asked cache) {k : Call}
    (hk : .solve k ∈ asked) : c.Truthful asked (c.call cache k).2 := by
  intro en hen
  cases hq : c.question? k with
  | none =>
    rw [(call_of_none hq).2] at hen
    exact h en hen
  | some q =>
    rw [call_of_some hq] at hen
    obtain hen | ⟨hkey, hs⟩ := mem_entries_answer hen
    · exact h en hen
    · exact ⟨k, hk, q, hq, hkey, hs⟩

/-- Any requests keep a cache truthful. -/
theorem cacheAfter_truthful {asked rs : List Request} (h : c.Truthful asked cache)
    (hs : rs ⊆ asked) : c.Truthful asked (c.cacheAfter cache rs) := by
  -- `asked` stays the same along the way, so that it is one invariant that every request keeps.
  induction rs generalizing cache with
  | nil => exact h
  | cons r rs ih =>
    rw [List.cons_subset] at hs
    cases r with
    | solve k => exact ih (h.call hs.1) hs.2
    | clear => exact ih (fun _ => nofun) hs.2

/--
That the attempt at a closed form reads nothing of the bindings but the residual of the formula
with their values written in.
-/
def ReadsSubstituted (c : Calculator) : Prop :=
  ∀ formula bindings bindings' unknown,
    (residual formula.toList).map (substituteAll · bindings) =
      (residual formula.toList).map (substituteAll · bindings') →
    c.closedForm formula bindings unknown = c.closedForm formula bindings' unknown

/-- The attempt at a closed form by simplification is of that kind. -/
lemma closedForm_readsSubstituted (h : c.closedForm = ClosedForm.closedForm) :
    c.ReadsSubstituted := by
  intro formula bindings bindings' unknown htext
  have hread : ClosedForm.readFormula formula bindings unknown =
      ClosedForm.readFormula formula bindings' unknown := by
    rw [ClosedForm.readFormula, ClosedForm.readFormula]
    cases hr : residual formula.toList with
    | error e => rfl
    | ok text =>
      rw [hr] at htext
      have htext : substituteAll text bindings = substituteAll text bindings' := Except.ok.inj htext
      simp only [pure_bind, htext]
  rw [h]
  simp only [ClosedForm.closedForm, ClosedForm.Simplifier.closedForm, ClosedForm.simplifier, hread]

/-- The answer does not depend on the order of the bindings. -/
lemma compute_perm (hc : c.ReadsSubstituted) {bindings bindings' : Table Float}
    (hs : Separate bindings) (hp : bindings.Perm bindings') (formula unknown : String) :
    c.compute formula bindings unknown = c.compute formula bindings' unknown := by
  have htext : (residual formula.toList).map (substituteAll · bindings) =
      (residual formula.toList).map (substituteAll · bindings') := by
    cases residual formula.toList with
    | error e => rfl
    | ok text => exact congrArg Except.ok (substituteAll_perm hs hp text)
  simp only [compute, hc _ _ _ _ htext, solve_perm hs.nodup hp]

/-- Questions with the same key have the same answer, if no zero changes its sign. -/
lemma fresh_of_key (hc : c.ReadsSubstituted) {q q' : Question} (hs : Separate q'.bindings)
    (h : q.key.same q'.key) (hz : q.SameZeros q') : c.fresh q = c.fresh q' := by
  obtain ⟨hf, hu, hp⟩ := Question.perm_of_key h hz
  rw [fresh, fresh, hf, hu, compute_perm hc hs hp.symm]

/-- The bindings of a question are well-formed for its equation. -/
lemma question?_wellFormed {k : Call} {q : Question} (h : c.question? k = some q) :
    WellFormed q.equation.symbols q.unknown q.bindings := by
  simp only [question?, Option.bind_eq_bind, Option.bind_eq_some_iff] at h
  obtain ⟨e, -, bindings, hb, h⟩ := h
  cases h
  cases hb' : c.bindings e k.inputs k.unknown with
  | error f =>
    rw [hb'] at hb
    cases hb
  | ok b =>
    rw [hb'] at hb
    cases hb
    exact bindings_wellFormed hb'

/-- That two calls ask questions with the same key. -/
def SameKey (c : Calculator) (k k' : Call) : Prop :=
  ∃ q q', c.question? k = some q ∧ c.question? k' = some q' ∧ q.key.same q'.key

/-- That all variables of the equation that a call asks for are symbols. -/
def HasSymbols (c : Calculator) (k : Call) : Prop :=
  ∀ q, c.question? k = some q → ∀ s ∈ q.equation.symbols, isSymbol s.toList

/-- That two calls bind no zero of different signs. -/
def SameZeros (c : Calculator) (k k' : Call) : Prop :=
  ∀ q q', c.question? k = some q → c.question? k' = some q' → q.SameZeros q'

/-- With an empty cache, a call gets the fresh answer to its question. -/
lemma call_empty {k : Call} {q : Question} (hq : c.question? k = some q) :
    Stop.answered? (c.call {} k).1 = Stop.answered? (c.fresh q) := by
  rw [call_of_some hq, answered?_answer]
  rfl

/-- A call that asks for the same as the one before it gets the same answer. -/
lemma call_again {k k' : Call} {q q' : Question} {v : Cached} (hq : c.question? k = some q)
    (hq' : c.question? k' = some q') (hs : Stop.answered? (c.fresh q) = some v)
    (hsame : q.key.same q'.key) :
    Stop.answered? (c.call (c.cacheAfter {} [.solve k]) k').1 = some v := by
  have hentries : (c.cacheAfter {} [.solve k]).entries = [(q.key, v)] := by
    rw [cacheAfter, cacheAfter, call_of_some hq, entries_answer rfl hs]
    rfl
  rw [call_of_some hq', answered?_answer, Cache.find?, hentries]
  simp [hsame]

/--
After any requests, an answer is the one that the call or an earlier one with the same key gets
without a cache. If the variables are symbols and no earlier call with the same key binds a zero of
the other sign, it is the answer that the call itself gets.
-/
theorem solve_transparent (hc : c.ReadsSubstituted) (rs : List Request) (k : Call) {s : Solution}
    (h : (c.call (c.cacheAfter {} rs) k).1 = .ok s) :
    (∃ k', (k' = k ∨ .solve k' ∈ rs) ∧ c.SameKey k' k ∧
      Stop.answered? (c.call {} k').1 = some ⟨s.value, s.converged⟩) ∧
    (c.HasSymbols k → (∀ k', .solve k' ∈ rs → c.SameKey k' k → c.SameZeros k' k) →
      Stop.answered? (c.call {} k).1 = some ⟨s.value, s.converged⟩) := by
  have hs : Stop.answered? (c.call (c.cacheAfter {} rs) k).1 = some ⟨s.value, s.converged⟩ := by
    rw [h, Stop.answered?]
  cases hq : c.question? k with
  | none =>
    rw [(call_of_none hq).1] at hs
    cases hs
  | some q =>
    rw [call_of_some hq, answered?_answer] at hs
    cases hf : (c.cacheAfter {} rs).find? q.key with
    | none =>
      rw [hf, Option.none_or] at hs
      rw [call_empty hq, hs]
      exact ⟨⟨k, .inl rfl, ⟨q, q, hq, hq, q.key_same_self⟩, by rw [call_empty hq, hs]⟩, fun _ _ => rfl⟩
    | some v =>
      rw [hf, Option.some_or] at hs
      cases hs
      -- The entry that was found is the answer to an earlier question with the same key.
      simp only [Cache.find?, Option.map_eq_some_iff] at hf
      obtain ⟨en, hfind, hv⟩ := hf
      have hempty : c.Truthful rs {} := fun _ => nofun
      have htruth := cacheAfter_truthful hempty (List.Subset.refl rs)
      obtain ⟨k', hk', q', hq', hkey, hans⟩ := htruth en (List.mem_of_find?_eq_some hfind)
      have hsame := List.find?_some hfind
      rw [← hkey] at hsame
      have hk : c.SameKey k' k := ⟨q', q, hq', hq, hsame⟩
      rw [hv] at hans
      refine ⟨⟨k', .inr hk', hk, by rw [call_empty hq', hans]⟩, fun hsym hzero => ?_⟩
      have hsep := (question?_wellFormed hq).separate (hsym q hq)
      rw [call_empty hq, ← fresh_of_key hc hsep hsame (hzero k' hk' hk q' q hq' hq), hans]

/-- The second of two equal calls is answered from the cache as the first one was. -/
theorem solve_transparent_repeated :
    let c : Calculator :=
      ⟨⟨[], [], [], []⟩, .standard, fun _ _ _ => ⟨[.closedForm .linear 2.0], some 2.0⟩⟩
    let k : Call := ⟨.given ⟨"", "", "y = x", ["y", "x"], "", ""⟩, [("x", .text "2")], "y"⟩
    Stop.answered? (c.call {} k).1 = some ⟨2.0, true⟩ := by
  intro c k
  let q : Question := ⟨⟨"", "", "y = x", ["y", "x"], "", ""⟩, "y", [("x", 2.0)]⟩
  have hq : c.question? k = some q := rfl
  have hans : Stop.answered? (c.call (c.cacheAfter {} [.solve k]) k).1 = some ⟨2.0, true⟩ :=
    call_again hq hq rfl q.key_same_self
  obtain ⟨s, hs⟩ : ∃ s, (c.call (c.cacheAfter {} [.solve k]) k).1 = .ok s := by
    cases hs : (c.call (c.cacheAfter {} [.solve k]) k).1 with
    | ok s => exact ⟨s, rfl⟩
    | error e =>
      rw [hs] at hans
      cases hans
  rw [hs, Stop.answered?] at hans
  have h := (solve_transparent (fun _ _ _ _ _ => rfl) [.solve k] k hs).2
  rw [hans] at h
  refine h ?_ ?_
  · intro q hq'
    cases hq.symm.trans hq'
    decide
  · intro k' hk' _ q q' hq₁ hq₂ n x y hx hy _ _
    cases List.mem_singleton.1 hk'
    cases hq.symm.trans hq₁
    cases hq.symm.trans hq₂
    cases List.mem_singleton.1 hx
    cases List.mem_singleton.1 hy
    rfl

/-- A calculator whose attempts at a closed form find nothing, so that it always searches. -/
def searching : Calculator :=
  ⟨⟨[], [], [], []⟩, .standard, fun _ _ _ => ⟨[.simplified, .noClosedForm .notFound], none⟩⟩

/-- A call for `y` in an equation that depends on the sign of a zero. -/
def angleCall (x : String) : Call :=
  ⟨.given ⟨"", "", "y + abs(y) = atan2(x, -1)", ["y", "x"], "", ""⟩, [("x", .text x)], "y"⟩

/-- The question of such a call. -/
def angleQuestion (x : Float) : Question :=
  ⟨⟨"", "", "y + abs(y) = atan2(x, -1)", ["y", "x"], "", ""⟩, "y", [("x", x)]⟩

/-- The residual of the equation of such a call. -/
def angleResidual (x : Float) : Residual :=
  ⟨.binary .sub (.binary .add (.name "_s0") (.call (.name "abs") [.name "_s0"]))
    (.call (.name "atan2") [.name "_s1", .unary .minus (.integer 1)]), "_s0", [("_s1", x)]⟩

/-- The residual at a value of `y` has the angle of `x` in it. -/
lemma valueAt_angleResidual (x y : Float) :
    (angleResidual x).valueAt y = .ok (y + y.abs - Float.atan2 x (-1.0)) := by
  have hone : floatOfInt? (-1) = some (-1.0) := by decide +kernel
  let scope : Expression.Scope := [("_s0", y), ("_s1", x)]
  have hy : Expression.lookup scope "_s0" = .ok (.scalar (.real y)) := rfl
  have hx : Expression.lookup scope "_s1" = .ok (.scalar (.real x)) := rfl
  have habs : Expression.lookup scope "abs" = .ok (.function .abs) := rfl
  have hatan : Expression.lookup scope "atan2" = .ok (.function .atan2) := rfl
  have hsum : (Expression.binary .add (.name "_s0") (.call (.name "abs") [.name "_s0"])).eval scope =
      .ok (.scalar (.real (y + y.abs))) := by
    simp only [Expression.eval, Expression.evalAll, hy, habs]
    rfl
  have hangle : (Expression.call (.name "atan2") [.name "_s1", .unary .minus (.integer 1)]).eval
      scope = .ok (.scalar (.real (Float.atan2 x (-1.0)))) := by
    have hcall : Value.call (.function .atan2) [.scalar (.real x), .scalar (.integer (-1))] =
        .ok (.scalar (.real (Float.atan2 x (-1.0)))) := by
      have happly : Function.atan2.apply [.real x, .integer (-1)] =
          .ok (.real (Float.atan2 x (-1.0))) := by
        simp only [Function.apply, Scalar.toFloat, hone]
        rfl
      exact congrArg Value.ofScalar happly
    simp only [Expression.eval, Expression.evalAll, hx, hatan]
    exact hcall
  have hresidual : (angleResidual x).expression.eval scope =
      .ok (.scalar (.real (y + y.abs - Float.atan2 x (-1.0)))) := by
    rw [angleResidual, Expression.eval, hsum, hangle]
    · rfl
    · intro h
      cases h
    · intro h
      cases h
  have hscope : (angleResidual x).expression.eval
      (((angleResidual x).unknown, y) :: (angleResidual x).scope) = _ := hresidual
  rw [Residual.valueAt, Expression.value, hscope]
  rfl

/-- The residual is what is built of the formula. -/
lemma build_angle (x : Float) : Residual.build "y + abs(y) = atan2(x, -1)" [("x", x)] "y" =
    .ok (angleResidual x) := by
  have hscope : [("x", x)].filterMap (fun b =>
      ((aliased "(y + abs(y)) - (atan2(x, -1))".toList).2.lookup b.1).map (·, b.2)) =
        [("_s1", x)] := by
    have hx : (aliased "(y + abs(y)) - (atan2(x, -1))".toList).2.lookup "x" = some "_s1" := by
      decide +kernel
    simp only [List.filterMap_cons, hx, List.filterMap_nil]
    rfl
  have hunknown : (aliased "(y + abs(y)) - (atan2(x, -1))".toList).2.lookup "y" = some "_s0" := by
    decide +kernel
  have hcompile : Expression.compile (aliased "(y + abs(y)) - (atan2(x, -1))".toList).1 =
      .ok (angleResidual 0.0).expression := toOption_eq_some.1 (by decide +kernel)
  have hbound : ∀ n ∈ (angleResidual 0.0).expression.names, Value.builtin? n = none →
      n = "_s0" ∨ n = "_s1" := by decide +kernel
  refine Residual.build_eq_ok.2 ⟨_, rfl, hunknown, hcompile, hscope.symm, fun n hn hnone => ?_⟩
  obtain rfl | rfl := hbound n hn hnone
  · exact .inl rfl
  · exact .inr rfl

/-- A search for `y` depends on the angle of `x` only. -/
lemma valueAt_of_atan2 {x c : Float} (h : Float.atan2 x (-1.0) = c) :
    (angleResidual x).valueAt = fun y => .ok (y + y.abs - c) := by
  funext y
  rw [valueAt_angleResidual, h]

/-- What a search for a `y` with the sum `y + abs(y) = c` answers. -/
def sumAnswer? (c : Float) : Option (Numeric.Outcome Float) :=
  (search (m := Except Interruption) .standard fun y => .ok (y + y.abs - c)).toOption.bind
    (·.result.toOption)

/-- The fresh answer to such a question is what a search for the angle finds. -/
lemma angle_fresh {x c : Float} {o : Numeric.Outcome Float} (h : Float.atan2 x (-1.0) = c)
    (ho : sumAnswer? c = some o) :
    Stop.answered? (searching.fresh (angleQuestion x)) = some ⟨o.value, o.converged⟩ := by
  have hcanonical : String.ofList (canonical "y + abs(y) = atan2(x, -1)".toList) =
      "y + abs(y) = atan2(x, -1)" := by decide +kernel
  have hs : answer? .standard (angleResidual x) = some o := by
    rw [answer?, valueAt_of_atan2 h, ← ho, sumAnswer?]
  have hsolve := solve_result_of_answer? (build_angle x) hs
  simp only [fresh, angleQuestion, hcanonical, compute, searching, hsolve, Stop.answered?]

/--
After a call with a positive zero, the same call with a negative zero gets the answer that was kept,
and not its own: the angles of the two zeros are half a turn from zero on different sides, and only
that of the positive one is a sum `y + abs(y)`.
-/
theorem solve_not_transparent (hpos : Float.atan2 0.0 (-1.0) = 3.141592653589793)
    (hneg : Float.atan2 (-0.0) (-1.0) = -3.141592653589793) :
    searching.ReadsSubstituted ∧
      Stop.answered? (searching.call (searching.cacheAfter {} [.solve (angleCall "0.0")])
        (angleCall "-0.0")).1 = some ⟨1.570796326841854, true⟩ ∧
      Stop.answered? (searching.call {} (angleCall "-0.0")).1 = some ⟨-1000.0, false⟩ := by
  have hq : searching.question? (angleCall "0.0") = some (angleQuestion 0.0) := rfl
  have hq' : searching.question? (angleCall "-0.0") = some (angleQuestion (-0.0)) := rfl
  have hfresh : Stop.answered? (searching.fresh (angleQuestion 0.0)) =
      some ⟨1.570796326841854, true⟩ :=
    angle_fresh (o := .newton 1.0 1.570796326841854) hpos (by decide +kernel)
  have hfresh' : Stop.answered? (searching.fresh (angleQuestion (-0.0))) =
      some ⟨-1000.0, false⟩ :=
    angle_fresh (o := .bestEffort (-1000.0)) hneg (by decide +kernel)
  have hsame : (angleQuestion 0.0).key.same (angleQuestion (-0.0)).key := by
    simp only [Question.key, CacheKey.of, angleQuestion, List.mergeSort_singleton]
    decide +kernel
  exact ⟨fun _ _ _ _ _ => rfl, call_again hq hq' hfresh hsame, (call_empty hq').trans hfresh'⟩

end Calculator
end Formulary
