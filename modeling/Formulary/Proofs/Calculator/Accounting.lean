import Formulary.Proofs.Calculator.Answer
import Formulary.Proofs.Calculator.Key

/-!
# What the cache counts

A session asks a calculator one thing after the other and keeps a log of the questions since the
cache was last cleared. The cache agrees with the log at any time (`session_accounted`): it keeps
the answers in the log and nothing else, and its numbers are those of the log. Hence a question is
answered from the cache exactly if the log has an answer to an equal one (`session_accounts`).
-/

namespace Formulary

open Formulary.Number

/-- What may be done with a calculator: a call, for the answer as it is or as it is shown, or a
clearing of its cache. -/
inductive Action where
  | ask (shown : Bool) (k : Call)
  | clear

/-- A question that was asked, with its outcome. -/
structure Event where
  question : Question
  outcome : Except Stop Solution

namespace Event

/-- Whether a question was answered from the cache. -/
def isHit (e : Event) : Bool := e.outcome.toOption.any (·.cached)

/-- Whether a question was answered by computing. -/
def isComputed (e : Event) : Bool := e.outcome.toOption.any fun s => !s.cached

/-- Whether a question was not answered. -/
def isFailed (e : Event) : Bool := e.outcome.toOption.isNone

end Event

/-- A cache, and a log of the questions that were asked since it was last cleared. -/
structure Session where
  cache : Cache := {}
  log : List Event := []

namespace Calculator

/-- The outcome of a call for an answer as it is or as it is shown, and the cache after it. -/
def ask (c : Calculator) (cache : Cache) (shown : Bool) (k : Call) :
    Except Stop Solution × Cache :=
  if shown then
    let (outcome, cache) := c.solveAndFormat cache k.equation k.inputs k.unknown
    (outcome.map (·.solution), cache)
  else c.call cache k

/-- A session after an action. A call that does not pass its checks asks no question. -/
def act (c : Calculator) (s : Session) : Action → Session
  | .ask shown k =>
    let (outcome, cache) := c.ask s.cache shown k
    ⟨cache, s.log ++ ((c.question? k).map fun q => ⟨q, outcome⟩).toList⟩
  | .clear => ⟨s.cache.clear, []⟩

/-- The session of some actions, from an empty cache. -/
def session (c : Calculator) (actions : List Action) : Session := actions.foldl c.act {}

variable {c : Calculator} {cache : Cache} {s : Session}

/-- An answer is the same whether it is shown or not. -/
lemma ask_eq_call (shown : Bool) (k : Call) : c.ask cache shown k = c.call cache k := by
  cases shown with
  | false => rfl
  | true =>
    simp only [ask, if_true, solveAndFormat, call]
    cases c.solve cache k.equation k.inputs k.unknown with
    | mk outcome cache =>
      cases outcome with
      | ok s => rfl
      | error e => rfl

/-- A call that passes its checks goes into the log. -/
lemma act_of_some {k : Call} {q : Question} (h : c.question? k = some q) (shown : Bool) :
    c.act s (.ask shown k) =
      ⟨(c.call s.cache k).2, s.log ++ [⟨q, (c.call s.cache k).1⟩]⟩ := by
  simp only [act, ask_eq_call, h, Option.map_some, Option.toList_some]

/-- A call that does not pass its checks changes nothing. -/
lemma act_of_none {k : Call} (h : c.question? k = none) (shown : Bool) :
    c.act s (.ask shown k) = s := by
  simp only [act, ask_eq_call, h, (call_of_none h).2, Option.map_none, Option.toList_none,
    List.append_nil]

/-- That a cache and a log agree. -/
structure Accounted (s : Session) : Prop where
  /-- every entry is an answer in the log -/
  stored : ∀ en ∈ s.cache.entries, ∃ e ∈ s.log,
    e.question.key = en.1 ∧ Stop.answered? e.outcome = some en.2
  /-- every answer in the log is found -/
  kept : ∀ e ∈ s.log, ∀ v, Stop.answered? e.outcome = some v →
    s.cache.find? e.question.key = some v
  size : s.cache.size = s.log.countP Event.isComputed
  hits : s.cache.hits = s.log.countP Event.isHit
  misses : s.cache.misses = s.cache.size + s.log.countP Event.isFailed

/-- A new cache accounts for no requests. -/
lemma accounted_empty : Accounted {} := ⟨nofun, nofun, rfl, rfl, rfl⟩

/-- What is found after an entry was added. -/
lemma find?_add (key key' : CacheKey) (v : Cached) (hits misses : Nat) :
    Cache.find? ⟨cache.entries ++ [(key, v)], hits, misses⟩ key' =
      (cache.find? key').or (if key.same key' then some v else none) := by
  simp only [Cache.find?, List.find?_append, Option.map_or, List.find?_singleton]
  split <;> rfl

/-- A question that is asked keeps a cache and a log in agreement. -/
lemma Accounted.answered {q : Question} {r : Except Stop Solution × Cache} (h : Accounted s)
    (ha : Answered c s.cache q r) : Accounted ⟨r.2, s.log ++ [⟨q, r.1⟩]⟩ := by
  have stored {en : CacheKey × Cached} {l : List Event} (hen : en ∈ s.cache.entries) :
      ∃ e ∈ s.log ++ l, e.question.key = en.1 ∧ Stop.answered? e.outcome = some en.2 := by
    obtain ⟨e, he, hkey, hv⟩ := h.stored en hen
    exact ⟨e, List.mem_append_left _ he, hkey, hv⟩
  -- A hit and a failure leave the entries as they are, and an answer that is computed adds one.
  cases ha with
  | @hit v hf =>
    refine ⟨fun en hen => stored hen, fun e he w hw => ?_, ?_, ?_, ?_⟩
    · obtain he | he := List.mem_append.1 he
      · exact h.kept e he w hw
      · cases List.mem_singleton.1 he
        cases hw
        exact hf
    · simpa [Cache.size, Event.isComputed, Except.toOption] using h.size
    · simpa [Event.isHit, Except.toOption] using h.hits
    · simpa [Cache.size, Event.isFailed, Except.toOption] using h.misses
  | @computed a hf ha =>
    have hcached : a.cached = false := cached_fresh ha
    refine ⟨fun en hen => ?_, fun e he w hw => ?_, ?_, ?_, ?_⟩
    · obtain hen | hen := List.mem_append.1 hen
      · exact stored hen
      · cases List.mem_singleton.1 hen
        exact ⟨_, List.mem_append_right _ (List.mem_singleton_self _), rfl, rfl⟩
    · rw [find?_add]
      obtain he | he := List.mem_append.1 he
      · rw [h.kept e he w hw, Option.some_or]
      · cases List.mem_singleton.1 he
        cases hw
        rw [hf, Option.none_or, if_pos q.key_same_self]
    · have := h.size
      simp_all [Cache.size, Event.isComputed, Except.toOption]
    · simpa [Event.isHit, Except.toOption, hcached] using h.hits
    · have := h.misses
      simp [Cache.size, Event.isFailed, Except.toOption] at this ⊢
      omega
  | @failed e hf he =>
    refine ⟨fun en hen => stored hen, fun e' he' w hw => ?_, ?_, ?_, ?_⟩
    · obtain he' | he' := List.mem_append.1 he'
      · exact h.kept e' he' w hw
      · cases List.mem_singleton.1 he'
        cases hw
    · simpa [Cache.size, Event.isComputed, Except.toOption] using h.size
    · simpa [Event.isHit, Except.toOption] using h.hits
    · have := h.misses
      simp [Cache.size, Event.isFailed, Except.toOption] at this ⊢
      omega

/-- One action keeps a cache and a log in agreement. -/
lemma Accounted.act (h : Accounted s) (a : Action) : Accounted (c.act s a) := by
  cases a with
  | clear => exact accounted_empty
  | ask shown k =>
    cases hq : c.question? k with
    | none => rwa [act_of_none hq]
    | some q =>
      rw [act_of_some hq]
      exact h.answered (answered_call hq)

/-- The cache agrees with the log at any time. -/
theorem session_accounted (c : Calculator) (actions : List Action) :
    Accounted (c.session actions) := by
  suffices ∀ s, Accounted s → Accounted (actions.foldl c.act s) from this {} accounted_empty
  induction actions with
  | nil => exact fun s h => h
  | cons a actions ih => exact fun s h => ih _ (h.act a)

/-- That every question a call of a session asks has finite values only. -/
def AsksFinite (c : Calculator) (actions : List Action) : Prop :=
  ∀ shown k q, .ask shown k ∈ actions → c.question? k = some q → ∀ b ∈ q.bindings, b.2.isFinite

/-- The question of a call is regular if its bindings are finite. -/
lemma question?_regular {k : Call} {q : Question} (h : c.question? k = some q)
    (hfin : ∀ b ∈ q.bindings, b.2.isFinite) : q.Regular :=
  ⟨(question?_wellFormed h).nodup, hfin⟩

/-- The questions in the log bind each name once, and to a finite value. -/
lemma session_regular {actions : List Action} (hfin : c.AsksFinite actions) :
    ∀ e ∈ (c.session actions).log, e.question.Regular := by
  suffices ∀ s : Session, (∀ e ∈ s.log, e.question.Regular) →
      ∀ e ∈ (actions.foldl c.act s).log, e.question.Regular from this {} nofun
  induction actions with
  | nil => exact fun s h => h
  | cons a actions ih =>
    refine fun s h => ih (fun shown k q hk => hfin shown k q (List.mem_cons_of_mem _ hk)) _ ?_
    cases a with
    | clear => exact nofun
    | ask shown k =>
      cases hq : c.question? k with
      | none => rwa [act_of_none hq]
      | some q =>
        rw [act_of_some hq]
        intro e he
        obtain he | he := List.mem_append.1 he
        · exact h e he
        · cases List.mem_singleton.1 he
          exact question?_regular hq (hfin shown k q (List.mem_cons_self ..) hq)

/-- What is found under a key is an answer in the log to an equal question. -/
lemma Accounted.exists_event {q : Question} {v : Cached} (h : Accounted s)
    (hs : ∀ e ∈ s.log, e.question.Regular) (hq : q.Regular)
    (hf : s.cache.find? q.key = some v) :
    ∃ e ∈ s.log, e.question.Equal q ∧ Stop.answered? e.outcome = some v := by
  simp only [Cache.find?, Option.map_eq_some_iff] at hf
  obtain ⟨en, hen, rfl⟩ := hf
  obtain ⟨e, he, hkey, hv⟩ := h.stored en (List.mem_of_find?_eq_some hen)
  have hsame := List.find?_some hen
  rw [← hkey] at hsame
  exact ⟨e, he, (Question.key_same_iff (hs e he) hq).1 hsame, hv⟩

/-- An answer in the log is found under the key of any equal question. -/
lemma Accounted.find?_of_equal {e : Event} {q : Question} {v : Cached} (h : Accounted s)
    (hs : ∀ e ∈ s.log, e.question.Regular) (hq : q.Regular) (he : e ∈ s.log)
    (heq : e.question.Equal q) (hv : Stop.answered? e.outcome = some v) :
    s.cache.find? q.key = some v := by
  rw [← h.kept e he v hv]
  -- Every entry is under the key of a question in the log, so equal questions match the same ones.
  simp only [Cache.find?]
  refine congrArg (Option.map Prod.snd) (List.find?_congr fun en hen => ?_)
  obtain ⟨e', he', hkey, -⟩ := h.stored en hen
  rw [← hkey, Bool.eq_iff_iff, Question.key_same_iff (hs e' he') hq,
    Question.key_same_iff (hs e' he') (hs e he)]
  exact ⟨fun h => h.trans heq.symm, fun h => h.trans heq⟩

/--
In a session whose questions have finite values, the numbers of the cache are those of the log. A
call that does not pass its checks fails and changes nothing. Any other call is answered from the
cache exactly if the log has an answer to an equal question, whose value and convergence it then
gets; and if it fails, nothing is stored.
-/
theorem session_accounts (c : Calculator) (actions : List Action) (hfin : c.AsksFinite actions) :
    let s := c.session actions
    (s.cache.size = s.log.countP Event.isComputed ∧
      s.cache.hits = s.log.countP Event.isHit ∧
      s.cache.misses = s.cache.size + s.log.countP Event.isFailed) ∧
    ∀ shown k,
      (c.question? k = none →
        ∃ f, c.ask s.cache shown k = (.error (.failure f), s.cache)) ∧
      ∀ q, c.question? k = some q → (∀ b ∈ q.bindings, b.2.isFinite) →
        ((∃ a, (c.ask s.cache shown k).1 = .ok a ∧ a.cached = true) ↔
          ∃ e ∈ s.log, e.question.Equal q ∧ ∃ b, e.outcome = .ok b) ∧
        (∀ e ∈ s.log, e.question.Equal q → ∀ b, e.outcome = .ok b →
          ∃ a, (c.ask s.cache shown k).1 = .ok a ∧ a.cached = true ∧
            a.value = b.value ∧ a.converged = b.converged) ∧
        (∀ e, (c.ask s.cache shown k).1 = .error e →
          (c.ask s.cache shown k).2.entries = s.cache.entries) := by
  intro s
  have hacc : Accounted s := session_accounted c actions
  have hreg : ∀ e ∈ s.log, e.question.Regular := session_regular hfin
  refine ⟨⟨hacc.size, hacc.hits, hacc.misses⟩, fun shown k => ?_⟩
  rw [ask_eq_call]
  refine ⟨rejected_call, fun q hq hb => ?_⟩
  have hqreg : q.Regular := question?_regular hq hb
  have hans : Answered c s.cache q (c.call s.cache k) := answered_call hq
  have hit : ∀ e ∈ s.log, e.question.Equal q → ∀ b, e.outcome = .ok b →
      ∃ a, (c.call s.cache k).1 = .ok a ∧ a.cached = true ∧
        a.value = b.value ∧ a.converged = b.converged := by
    intro e he heq b hb
    exact hans.of_found (hacc.find?_of_equal hreg hqreg he heq (by rw [hb, Stop.answered?]))
  refine ⟨⟨?_, ?_⟩, hit, fun e he => hans.entries_of_error he⟩
  · rintro ⟨a, ha, hcached⟩
    obtain ⟨e, he, heq, hv⟩ := hacc.exists_event hreg hqreg (hans.found_of_cached ha hcached)
    refine ⟨e, he, heq, ?_⟩
    cases ho : e.outcome with
    | ok b => exact ⟨b, rfl⟩
    | error _ =>
      rw [ho] at hv
      cases hv
  · rintro ⟨e, he, heq, b, hb⟩
    obtain ⟨a, ha, hcached, -⟩ := hit e he heq b hb
    exact ⟨a, ha, hcached⟩

/-- A call that binds a zero is answered from the cache after one that bound the other zero. -/
theorem session_accounts_zeros :
    let c : Calculator :=
      ⟨⟨[], [], [], []⟩, .standard, fun _ _ _ => ⟨[.closedForm .linear 2.0], some 2.0⟩⟩
    let k (x : String) : Call :=
      ⟨.given ⟨"", "", "y = x", ["y", "x"], "", ""⟩, [("x", .text x)], "y"⟩
    let actions : List Action := [.ask false (k "1"), .clear, .ask true (k "0.0")]
    c.AsksFinite actions ∧
      ∃ a, (c.ask (c.session actions).cache false (k "-0.0")).1 = .ok a ∧
        a.cached = true ∧ a.value = 2.0 ∧ a.converged = true := by
  intro c k actions
  let q (x : Float) : Question := ⟨⟨"", "", "y = x", ["y", "x"], "", ""⟩, "y", [("x", x)]⟩
  have hpos : c.question? (k "0.0") = some (q 0.0) := rfl
  have hneg : c.question? (k "-0.0") = some (q (-0.0)) := rfl
  have hone : c.question? (k "1") = some (q 1.0) := rfl
  have hfin : c.AsksFinite actions := by
    intro shown k' q' hk hq b hb
    simp only [actions, List.mem_cons, Action.ask.injEq, reduceCtorEq, List.not_mem_nil,
      or_false, false_or] at hk
    obtain ⟨-, rfl⟩ | ⟨-, rfl⟩ := hk
    · cases hone.symm.trans hq
      cases List.mem_singleton.1 hb
      decide +kernel
    · cases hpos.symm.trans hq
      cases List.mem_singleton.1 hb
      decide +kernel
  have hlog : (c.session actions).log = [⟨q 0.0, (c.call {} (k "0.0")).1⟩] := by
    simp only [session, actions, List.foldl_cons, List.foldl_nil]
    rw [act_of_some hpos]
    rfl
  obtain ⟨b, hb, hvalue, hconverged⟩ :
      ∃ b, (c.call {} (k "0.0")).1 = .ok b ∧ b.value = 2.0 ∧ b.converged = true := by
    have h : Stop.answered? (c.call {} (k "0.0")).1 = some ⟨2.0, true⟩ := call_empty hpos
    cases ho : (c.call {} (k "0.0")).1 with
    | ok b =>
      rw [ho] at h
      cases b
      cases h
      exact ⟨_, rfl, rfl, rfl⟩
    | error _ =>
      rw [ho] at h
      cases h
  have hequal : (q 0.0).Equal (q (-0.0)) := by
    refine ⟨rfl, rfl, fun n => ?_⟩
    simp only [q, Table.get?, List.lookup_cons, List.lookup_nil]
    split
    · exact .some (by decide +kernel)
    · exact .none
  have h := ((session_accounts c actions hfin).2 false (k "-0.0")).2 _ hneg (by decide +kernel)
  have hmem : ⟨q 0.0, (c.call {} (k "0.0")).1⟩ ∈ (c.session actions).log := by
    rw [hlog]
    exact List.mem_singleton_self _
  obtain ⟨a, ha, hcached, hv, hc⟩ := h.2.1 _ hmem hequal b hb
  exact ⟨hfin, a, ha, hcached, hv.trans hvalue, hc.trans hconverged⟩

end Calculator
end Formulary
