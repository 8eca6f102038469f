import Formulary.Proofs.Calculator.Transparency

/-!
# What an answer can be

A question is answered from the cache, or it is computed and kept, or it fails (`Answered`). Each of
these ways changes the cache in its own way, and nothing else does.
-/

namespace Formulary

/-- The formula of a question, with angles in degrees. -/
def Question.canonical (q : Question) : String :=
  String.ofList (Formula.canonical q.equation.formula.toList)

/-- The first steps of the trace of a question. -/
def Question.opening (q : Question) : Trace :=
  Calculator.opening q.equation q.canonical q.unknown q.bindings

namespace Calculator

/-- The ways in which a question is answered, with what becomes of the cache. -/
inductive Answered (c : Calculator) (cache : Cache) (q : Question) :
    Except Stop Solution × Cache → Prop where
  | hit {v : Cached} :
    cache.find? q.key = some v →
    Answered c cache q
      (.ok ⟨v.value, .direct, v.converged, true, Question.opening q ++ [.cacheHit v.value]⟩,
        { cache with hits := cache.hits + 1 })
  | computed {s : Solution} :
    cache.find? q.key = none →
    c.fresh q = .ok s →
    Answered c cache q
      (.ok { s with trace := Question.opening q ++ s.trace },
        { cache with
          entries := cache.entries ++ [(q.key, ⟨s.value, s.converged⟩)]
          misses := cache.misses + 1 })
  | failed {e : Stop} :
    cache.find? q.key = none →
    c.fresh q = .error e →
    Answered c cache q (.error e, { cache with misses := cache.misses + 1 })

variable {c : Calculator} {cache : Cache}

/-- A question is answered in one of these ways. -/
theorem answered (q : Question) :
    Answered c cache q (c.answer cache q.equation q.bindings q.unknown) := by
  cases hf : cache.find? q.key with
  | some v =>
    have h := Answered.hit (c := c) hf
    simpa only [Question.opening, Question.canonical, answer, Cache.get, ← Question.key.eq_1, hf] using h
  | none =>
    have hput : ∀ v, (Cache.put { cache with misses := cache.misses + 1 } q.key v) =
        { cache with
          entries := cache.entries ++ [(q.key, v)]
          misses := cache.misses + 1 } := by
      intro v
      rw [Cache.put, Cache.putEntry_of_find?_none]
      simpa only [Cache.find?, Option.map_eq_none_iff] using hf
    cases hs : c.fresh q with
    | ok s =>
      have h := Answered.computed hf hs
      rw [fresh] at hs
      simpa only [Question.opening, Question.canonical, answer, Cache.get, ← Question.key.eq_1, hf,
        hs, hput] using h
    | error e =>
      have h := Answered.failed hf hs
      rw [fresh] at hs
      simpa only [answer, Cache.get, ← Question.key.eq_1, hf, hs] using h

/-- A call that passes its checks is answered as its question is. -/
lemma answered_call {k : Call} {q : Question} (h : c.question? k = some q) :
    Answered c cache q (c.call cache k) := by
  rw [call_of_some h]
  exact answered q

/-- A call that does not pass its checks fails and leaves the cache as it is. -/
lemma rejected_call {k : Call} (h : c.question? k = none) :
    ∃ f, c.call cache k = (.error (.failure f), cache) := by
  simp only [question?, Option.bind_eq_bind] at h
  simp only [call, solve]
  cases he : c.equation k.equation with
  | error f => exact ⟨f, rfl⟩
  | ok e =>
    dsimp only
    cases hb : c.bindings e k.inputs k.unknown with
    | error f => exact ⟨f, rfl⟩
    | ok bindings => simp [he, hb, Except.toOption] at h

/-- What is computed does not come from the cache. -/
lemma cached_fresh {q : Question} {s : Solution} (h : c.fresh q = .ok s) : s.cached = false := by
  simp only [fresh, compute] at h
  split at h
  · cases h
    rfl
  · split at h
    · cases h
      rfl
    · cases h

namespace Answered

variable {q : Question} {r : Except Stop Solution × Cache}

/-- What is found in the cache is the answer. -/
lemma of_found {v : Cached} (h : Answered c cache q r) (hf : cache.find? q.key = some v) :
    ∃ s, r.1 = .ok s ∧ s.cached = true ∧ s.value = v.value ∧ s.converged = v.converged := by
  cases h with
  | hit hv =>
    cases hv.symm.trans hf
    exact ⟨_, rfl, rfl, rfl, rfl⟩
  | computed hn _ => cases hn.symm.trans hf
  | failed hn _ => cases hn.symm.trans hf

/-- An answer that is said to be cached was found in the cache. -/
lemma found_of_cached {s : Solution} (h : Answered c cache q r) (hs : r.1 = .ok s)
    (hcached : s.cached = true) : cache.find? q.key = some ⟨s.value, s.converged⟩ := by
  cases h with
  | hit hv =>
    cases hs
    exact hv
  | computed _ ha =>
    cases hs
    rw [cached_fresh ha] at hcached
    cases hcached
  | failed _ _ => cases hs

/-- A failure stores nothing. -/
lemma entries_of_error {e : Stop} (h : Answered c cache q r) (he : r.1 = .error e) :
    r.2.entries = cache.entries := by
  cases h with
  | hit _ => cases he
  | computed _ _ => cases he
  | failed _ _ => rfl

end Answered
end Calculator
end Formulary
