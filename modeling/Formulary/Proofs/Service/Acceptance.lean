import Formulary.Catalog.Standard
import Formulary.Proofs.Calculator.Inputs
import Formulary.Proofs.Number.Finite
import Formulary.Service

/-!
# Values accepted by the service and by the calculator

A value passes two checks: the service makes a double of each number and of each truth value
(`acceptValue`), and the calculator reads what it is handed (`readInput`). An accepted value is read
as the raw one would be, unless that is a truth value: the calculator rejects those, and never sees
them. So the service does what the calculator does with the raw values of the body, but for a truth
value that the calculator would reject (`solve_agrees_iff`).
-/

namespace Formulary.Service

open Formulary.Calculator Formulary.Number Formulary.Text

/-- The values of a body under their names, as they came. -/
def rawValues : Datum → Table Datum
  | .mapping fields =>
    match Datum.entry? fields "values" with
    | some (.mapping kvs) => kvs.map fun (k, v) => (k.display, v)
    | _ => []
  | _ => []

/-- What the user is told about a refusal; of a request that does not fit only the fields are. -/
def Refusal.detail? : Refusal → Option String
  | .notFound detail | .unprocessable detail => some detail
  | .invalid _ => none

/-- The response that an outcome of the calculator makes. -/
def respond : Except Stop FormattedSolution → Except Stop (Except Refusal FormattedSolution)
  | .ok s => .ok (.ok s)
  | .error (.failure f) => .ok (.error (Refusal.ofFailure f))
  | .error e => .error e

/--
That a response tells what an outcome of the calculator does: the same number, found as surely, or
the same text.
-/
inductive Agrees : Except Stop (Except Refusal FormattedSolution) →
    Except Stop FormattedSolution → Prop where
  | answered {s s' : FormattedSolution} :
    s.solution.value = s'.solution.value →
    s.solution.converged = s'.solution.converged →
    Agrees (.ok (.ok s)) (.ok s')
  | refused {r : Refusal} {f : Failure} :
    r.detail? = some f.message →
    Agrees (.ok (.error r)) (.error (.failure f))
  | interrupted {i : Interruption} :
    Agrees (.error (.interrupted i)) (.error (.interrupted i))
  | zeroSlope :
    Agrees (.error .zeroSlope) (.error .zeroSlope)

/-- That the calculator rejects a truth value. -/
def RejectsTruth (outcome : Except Stop FormattedSolution) (name : String) (b : Bool) : Prop :=
  outcome = .error (.failure (.invalidNumber name (.truth b)))

/-- That values were accepted, each under the name that it had. -/
def Accepts (raw values : Table Datum) : Prop :=
  ∀ name, Option.Rel (fun v w => acceptValue v = some w) (raw.get? name) (values.get? name)

/-- What a value can be that was accepted. -/
inductive Accepted : Datum → Prop where
  | text (s : String) : Accepted (.text s)
  | real (x : Float) : Accepted (.real x)

variable {c : Calculator} {cache : Cache} {e : EquationRef} {inputs inputs' values raw : Table Datum}
  {unknown name : String} {names : List String} {v w : Datum} {f : Failure} {b : Bool}

/-! ### Responses -/

/-- The service responds to what the calculator answers, and keeps its cache. -/
lemma solve_eq_respond (c : Calculator) (cache : Cache) (r : Request) :
    solve c cache r =
      (respond (c.solveAndFormat cache (.key r.equation) r.values r.unknown).1,
        (c.solveAndFormat cache (.key r.equation) r.values r.unknown).2) := by
  unfold solve
  split <;> rename_i heq <;> rw [heq]
  · rfl
  · rfl
  · rename_i stop _ hne
    cases stop with
    | failure f => exact absurd rfl (hne f)
    | interrupted | zeroSlope => rfl

/-- A failure is refused with its text. -/
lemma detail?_ofFailure (f : Failure) : (Refusal.ofFailure f).detail? = some f.message := by
  cases f <;> rfl

/-- The response to an outcome agrees with it. -/
lemma agrees_respond (outcome : Except Stop FormattedSolution) : Agrees (respond outcome) outcome := by
  match outcome with
  | .ok s => exact .answered rfl rfl
  | .error (.failure f) => exact .refused (detail?_ofFailure f)
  | .error (.interrupted i) => exact .interrupted
  | .error .zeroSlope => exact .zeroSlope

/-- A response that agrees with a failure comes from a failure with the same message. -/
lemma Agrees.message_eq {outcome : Except Stop FormattedSolution}
    (h : Agrees (respond outcome) (.error (.failure f))) :
    ∃ g, outcome = .error (.failure g) ∧ g.message = f.message := by
  match outcome with
  | .ok s => cases h
  | .error (.failure g) =>
    cases h with
    | refused hdetail =>
      rw [detail?_ofFailure] at hdetail
      exact ⟨g, rfl, Option.some.inj hdetail⟩
  | .error (.interrupted i) => cases h
  | .error .zeroSlope => cases h

/-- What is shown of an answer depends on the answer only. -/
lemma solveAndFormat_congr (h : c.solve cache e inputs unknown = c.solve cache e inputs' unknown) :
    c.solveAndFormat cache e inputs unknown = c.solveAndFormat cache e inputs' unknown := by
  simp only [solveAndFormat, h]

/-- Showing an answer fails as answering does. -/
lemma solveAndFormat_eq_failure :
    (c.solveAndFormat cache e inputs unknown).1 = .error (.failure f) ↔
      (c.solve cache e inputs unknown).1 = .error (.failure f) := by
  simp only [solveAndFormat]
  split <;> rename_i heq <;> simp [heq]

/-! ### Accepted values -/

/-- A value that is accepted is a text or a number. -/
lemma accepted_of_acceptValue (h : acceptValue v = some w) : Accepted w := by
  cases v with
  | text s =>
    cases h
    exact .text s
  | truth b =>
    cases h
    exact .real _
  | integer n =>
    obtain ⟨x, -, rfl⟩ := Option.map_eq_some_iff.1 h
    exact .real x
  | real x =>
    cases h
    exact .real x
  | null | moment | list | mapping => cases h

/-- A value is read as before when it has been accepted, if it is no truth value. -/
lemma readInput_of_acceptValue (h : acceptValue v = some w) (hv : ∀ b, v ≠ .truth b) (name : String) :
    readInput name (some w) = readInput name (some v) := by
  cases v with
  | text s =>
    cases h
    rfl
  | truth b => exact absurd rfl (hv b)
  | integer n =>
    obtain ⟨x, hx, rfl⟩ := Option.map_eq_some_iff.1 h
    simp [readInput, readValue, hx, isFinite_of_floatOfInt? hx]
  | real x =>
    cases h
    rfl
  | null | moment | list | mapping => cases h

/-- Values are accepted one by one. -/
lemma acceptValues_cons {k v : Datum} {kvs : List (Datum × Datum)} :
    acceptValues ((k, v) :: kvs) = some values ↔
      ∃ w, acceptValue v = some w ∧ ∃ rest, acceptValues kvs = some rest ∧
        values = (k.display, w) :: rest := by
  simp only [acceptValues, List.mapM_cons]
  cases acceptValue v with
  | none => simp
  | some w =>
    cases List.mapM (m := Option) (fun p : Datum × Datum => (acceptValue p.2).map (p.1.display, ·)) kvs
      <;> simp [eq_comm]

/-- Values that were accepted are found under the names that they had. -/
lemma accepts_of_acceptValues {kvs : List (Datum × Datum)} (h : acceptValues kvs = some values) :
    Accepts (kvs.map fun p => (p.1.display, p.2)) values := by
  intro name
  induction kvs generalizing values with
  | nil =>
    cases h
    exact .none
  | cons p kvs ih =>
    obtain ⟨w, hw, rest, hrest, rfl⟩ := acceptValues_cons.1 h
    have ih := ih hrest
    simp only [Table.get?, List.map_cons, List.lookup_cons] at ih ⊢
    split
    · exact .some hw
    · exact ih

/-- The values of a request are those of its body, accepted. -/
lemma accepts_of_ofDatum {d : Datum} {r : Request} (h : Request.ofDatum d = .ok r) :
    Accepts (rawValues d) r.values := by
  unfold Request.ofDatum at h
  split at h
  · rename_i fields
    dsimp only at h
    split at h
    · rename_i values _ _ hvalues
      cases h
      show Accepts (rawValues (.mapping fields)) values
      unfold valuesField at hvalues
      simp only [rawValues]
      split at hvalues
      · rename_i heq
        cases hvalues
        rw [heq]
        exact fun _ => .none
      · rename_i kvs heq
        rw [heq]
        exact accepts_of_acceptValues hvalues
      · cases hvalues
    · cases h
  · cases h

/-! ### Reading the values -/

/-- What an accepted value is read as, or it was a truth value. -/
lemma Accepts.entered_eq (h : Accepts raw values) (name : String) :
    entered values name = entered raw name ∨ ∃ b, raw.get? name = some (.truth b) := by
  have hname := h name
  unfold entered
  generalize raw.get? name = v at hname
  generalize values.get? name = w at hname
  cases hname with
  | none => exact .inl rfl
  | @some v w hw =>
    cases v with
    | truth b => exact .inr ⟨b, rfl⟩
    | null | integer | real | text | moment | list | mapping =>
      exact .inl (readInput_of_acceptValue hw nofun name)

/-- A rejected value is the one that the inputs have under the name in the message. -/
lemma get?_of_variableValue {n : String}
    (h : c.variableValue inputs name = .error (.invalidNumber n v)) :
    n = name ∧ Catalog.isConstant name = false ∧ inputs.get? name = some v := by
  obtain hf | ⟨_, hf, hc, hget⟩ := failure_of_variableValue h
  · cases hf
  · cases hf
    exact ⟨rfl, hc, hget⟩

/-- An accepted value is read as the raw one, unless that is a truth value, which is rejected. -/
lemma Accepts.variableValue_eq (h : Accepts raw values) (name : String) :
    c.variableValue values name = c.variableValue raw name ∨
      ∃ b, c.variableValue raw name = .error (.invalidNumber name (.truth b)) := by
  cases hc : Catalog.isConstant name with
  | true => exact .inl (variableValue_congr fun hc' => absurd (hc.symm.trans hc') (by simp))
  | false =>
    obtain heq | ⟨b, hb⟩ := h.entered_eq name
    · exact .inl (variableValue_congr fun _ => heq)
    · refine .inr ⟨b, ?_⟩
      rw [variableValue_of_not_constant hc, entered, hb]
      rfl

/-- Variables are bound alike, or the first of them that fails has a truth value. -/
lemma Accepts.bindVariables_eq (h : Accepts raw values) (bindings : Table Float) :
    c.bindVariables values unknown names bindings = c.bindVariables raw unknown names bindings ∨
      ∃ name b, FailsFirst c raw unknown names name (.invalidNumber name (.truth b)) := by
  induction names generalizing bindings with
  | nil => exact .inl rfl
  | cons n rest ih =>
    unfold bindVariables
    split
    · rename_i hn
      refine (ih bindings).imp_right ?_
      rintro ⟨name, b, hfirst⟩
      exact ⟨name, b, hfirst.cons fun hne => absurd hn hne⟩
    · rename_i hn
      obtain heq | ⟨b, hb⟩ := h.variableValue_eq (c := c) n
      · rw [heq]
        cases hx : c.variableValue raw n with
        | error f => exact .inl rfl
        | ok x =>
          refine (ih (Table.put n x bindings)).imp_right ?_
          rintro ⟨name, b, hfirst⟩
          exact ⟨name, b, hfirst.cons fun _ => ⟨x, hx⟩⟩
      · exact .inr ⟨n, b, hn, hb, [], rest, rfl, by simp⟩

/-- The calculator does the same with accepted values, if it does not reject a raw truth value. -/
lemma Accepts.solve_eq (h : Accepts raw values)
    (hraw : ∀ name b, (c.solve cache e raw unknown).1 ≠
      .error (.failure (.invalidNumber name (.truth b)))) :
    c.solve cache e values unknown = c.solve cache e raw unknown := by
  refine solve_congr cache fun q hq => ?_
  unfold bindings
  split
  · rfl
  · rename_i hvalid
    refine (h.bindVariables_eq []).resolve_right ?_
    rintro ⟨name, b, hfirst⟩
    have hb : c.bindings q raw unknown = .error (.invalidNumber name (.truth b)) := by
      rw [bindings, if_neg hvalid]
      exact (bindVariables_eq_error []).2 ⟨name, hfirst⟩
    exact hraw name b (by simp only [Calculator.solve, hq, hb])

/-- A truth value that is rejected was given to a variable that needs a value. -/
lemma needs_of_rejected
    (h : (c.solve cache e raw unknown).1 = .error (.failure (.invalidNumber name (.truth b)))) :
    ∃ q, c.equation e = .ok q ∧ q.Needs unknown name ∧ raw.get? name = some (.truth b) := by
  cases failsWith_of_solve h with
  | «variable» hq hfirst =>
    rename_i q n
    obtain ⟨rfl, hc, hget⟩ := get?_of_variableValue hfirst.fails
    obtain ⟨before, after, hnames, -⟩ := hfirst.first
    exact ⟨q, hq, ⟨by simp [hnames], hfirst.ne_unknown, hc⟩, hget⟩

/-! ### Texts of failures -/

/-- The letter that a text about a failure begins with. -/
def initial : Failure → Char
  | .missingVariable _ => 'M'
  | .invalidNumber _ _ => 'I'
  | .unknownVariable _ _ | .noRoot _ _ => 'C'
  | .unknownEquation _ => 'U'

/-- A text begins as its first part does. -/
lemma head?_append {s t : String} {char : Char} (h : s.toList.head? = some char) :
    (s ++ t).toList.head? = some char := by
  rw [String.toList_append, List.head?_append, h]
  exact Option.some_or

/-- The text about a failure begins with a letter that tells its kind. -/
lemma head?_message (f : Failure) : f.message.toList.head? = some (initial f) := by
  cases f with
  | missingVariable | unknownEquation => exact head?_append (head?_append rfl)
  | invalidNumber | noRoot => exact head?_append (head?_append (head?_append rfl))
  | unknownVariable => exact head?_append (head?_append (head?_append (head?_append rfl)))

/-- The text about a value that is no number. -/
lemma message_invalidNumber :
    (Failure.invalidNumber name v).message =
      "Invalid value for variable '" ++ name ++ "': " ++ v.shown := rfl

/-- The text about an input ends as the input does. -/
lemma getLast?_message {char : Char} (h : v.shown.toList.getLast? = some char) :
    (Failure.invalidNumber name v).message.toList.getLast? = some char := by
  rw [message_invalidNumber, String.toList_append, List.getLast?_append, h]
  exact Option.some_or

/-- The text of a truth value ends with the same letter. -/
lemma getLast?_shown_truth (b : Bool) : (Datum.truth b).shown.toList.getLast? = some 'e' := by
  cases b <;> rfl

/-- An accepted value that is rejected after all does not end like a truth value. -/
lemma getLast?_shown (hv : Accepted v)
    (h : readInput name (some v) = .error (.invalidNumber name v)) :
    ∃ char, v.shown.toList.getLast? = some char ∧ char ≠ 'e' := by
  cases hv with
  | text s =>
    refine ⟨quoteFor s.toList, ?_, ?_⟩
    · simp only [Datum.shown, quoted, String.toList_ofList, List.getLast?_concat]
    · unfold quoteFor
      split <;> decide
  | real x =>
    have hx : ¬ x.isFinite := by
      intro hx
      simp [readInput, readValue, hx] at h
    simp only [Datum.shown, shortestText, String.toList_ofList]
    obtain hx | ⟨negative, hx⟩ := ofFloat_of_not_isFinite hx
    · rw [hx]
      exact ⟨'n', rfl, by decide⟩
    · rw [hx]
      cases negative <;> exact ⟨'f', rfl, by decide⟩

/-- No failure with accepted values is told like the rejection of a truth value. -/
lemma Accepts.message_ne (h : Accepts raw values) (hf : FailsWith c values unknown e f) :
    f.message ≠ (Failure.invalidNumber name (.truth b)).message := by
  intro heq
  have hinitial : initial f = 'I' := by
    have := congrArg (·.toList.head?) heq
    rw [head?_message, head?_message] at this
    exact Option.some.inj this
  cases hf with
  | equation | «unknown» | root => simp [initial] at hinitial
  | «variable» hq hfirst =>
    cases f with
    | missingVariable | unknownVariable | unknownEquation | noRoot => simp [initial] at hinitial
    | invalidNumber n v =>
      obtain ⟨rfl, hc, hget⟩ := get?_of_variableValue hfirst.fails
      have hread := hfirst.fails
      rw [variableValue_of_not_constant hc, entered, hget] at hread
      have hn := h n
      rw [hget] at hn
      generalize raw.get? n = w at hn
      obtain ⟨hv⟩ := hn
      obtain ⟨char, hlast, hne⟩ := getLast?_shown (accepted_of_acceptValue hv) hread
      have := congrArg (·.toList.getLast?) heq
      rw [getLast?_message hlast, getLast?_message (getLast?_shown_truth b)] at this
      exact hne (Option.some.inj this)

/-! ### The service and the calculator -/

/--
The service answers a body as the calculator does its raw values if and only if the calculator does
not reject a truth value, and then it leaves the same cache. A truth value that is rejected was
given to a variable that the request needs a value for.
-/
theorem solve_agrees_iff (c : Calculator) (cache : Cache) {d : Datum} {r : Request}
    (h : Request.ofDatum d = .ok r) :
    let raw := c.solveAndFormat cache (.key r.equation) (rawValues d) r.unknown
    (Agrees (solve c cache r).1 raw.1 ↔ ∀ name b, ¬ RejectsTruth raw.1 name b) ∧
    ((∀ name b, ¬ RejectsTruth raw.1 name b) → solve c cache r = (respond raw.1, raw.2)) ∧
    ∀ name b, RejectsTruth raw.1 name b →
      ∃ q, c.equation (.key r.equation) = .ok q ∧ q.Needs r.unknown name ∧
        (rawValues d).get? name = some (.truth b) := by
  intro raw
  have haccepts : Accepts (rawValues d) r.values := accepts_of_ofDatum h
  have hsame : (∀ name b, ¬ RejectsTruth raw.1 name b) →
      solve c cache r = (respond raw.1, raw.2) := by
    intro hraw
    have hsolve := haccepts.solve_eq fun name b hb =>
      hraw name b (solveAndFormat_eq_failure.2 hb)
    rw [solve_eq_respond, solveAndFormat_congr hsolve]
  refine ⟨⟨?_, fun hraw => ?_⟩, hsame, ?_⟩
  · intro hagrees name b hb
    rw [hb, solve_eq_respond] at hagrees
    obtain ⟨g, hg, hmessage⟩ := hagrees.message_eq
    exact haccepts.message_ne (failsWith_of_solve (solveAndFormat_eq_failure.1 hg)) hmessage
  · rw [hsame hraw]
    exact agrees_respond raw.1
  · intro name b hb
    exact needs_of_rejected (solveAndFormat_eq_failure.1 hb)

/-- The equation of the standard catalog for a velocity. -/
def velocity : Equation :=
  ⟨"mruv_velocity", "Velocidade (MRUV)", "v = v0 + a * t", ["v", "v0", "a", "t"], "mecanica",
    "cinematica"⟩

/-- The equation for a velocity is found in the standard catalog. -/
lemma equation_velocity (h : c.catalog = Catalog.standard) :
    c.equation (.key "mruv_velocity") = .ok velocity := by
  have hfound : Catalog.standard.equation? "mruv_velocity" = some velocity := by decide +kernel
  rw [equation, h, hfound]

/-- A body that asks for the velocity with some values. -/
def velocityBody (values : Datum) : Datum :=
  .mapping [(.text "equation", .text "mruv_velocity"), (.text "unknown", .text "v"),
    (.text "values", values)]

/-- Truth values for the unknown and under a name that no variable has do not matter. -/
theorem solve_agrees_velocity :
    let c : Calculator := ⟨.standard, .standard, fun _ _ _ => ⟨[.closedForm .linear 6.0], some 6.0⟩⟩
    let d : Datum := velocityBody <| .mapping [(.text "v0", .text " 0 "), (.text "a", .integer 3),
      (.text "t", .real 2.0), (.text "v", .truth true), (.text "g", .truth false)]
    ∃ r, Request.ofDatum d = .ok r ∧
      Agrees (solve c {} r).1 (c.solveAndFormat {} (.key r.equation) (rawValues d) r.unknown).1 := by
  intro c d
  obtain ⟨hiff, -, hneeds⟩ := solve_agrees_iff c {} (d := d) rfl
  refine ⟨_, rfl, hiff.2 fun name b hb => ?_⟩
  obtain ⟨q, hq, ⟨hmem, hne, -⟩, hget⟩ := hneeds name b hb
  obtain rfl := Except.ok.inj (hq.symm.trans (equation_velocity rfl))
  simp only [velocity, List.mem_cons, List.not_mem_nil, or_false] at hmem
  obtain rfl | rfl | rfl | rfl := hmem
  · exact hne rfl
  · cases hget
  · cases hget
  · cases hget

/-- The calculator rejects a truth value as an acceleration, and the service computes with 1. -/
theorem solve_disagrees :
    let c : Calculator := ⟨.standard, .standard, fun _ _ _ => ⟨[.closedForm .linear 2.0], some 2.0⟩⟩
    let d : Datum := velocityBody <|
      .mapping [(.text "v0", .text "0"), (.text "a", .truth true), (.text "t", .integer 2)]
    ∃ r, Request.ofDatum d = .ok r ∧
      RejectsTruth (c.solveAndFormat {} (.key r.equation) (rawValues d) r.unknown).1 "a" true ∧
      (∃ s, (solve c {} r).1 = .ok (.ok s)) ∧
      ¬ Agrees (solve c {} r).1 (c.solveAndFormat {} (.key r.equation) (rawValues d) r.unknown).1 := by
  intro c d
  have hq : c.equation (.key "mruv_velocity") = .ok velocity := equation_velocity rfl
  have hraw : RejectsTruth
      (c.solveAndFormat {} (.key "mruv_velocity") (rawValues d) "v").1 "a" true := by
    refine solveAndFormat_eq_failure.2 ?_
    simp only [Calculator.solve, hq]
    rfl
  have hanswer : ∃ s, (solve c {} ⟨"mruv_velocity", "v",
      [("v0", .text "0"), ("a", .real 1.0), ("t", .real 2.0)]⟩).1 = .ok (.ok s) := by
    rw [solve_eq_respond]
    simp only [solveAndFormat, Calculator.solve, hq]
    exact ⟨_, rfl⟩
  refine ⟨_, rfl, hraw, hanswer, ?_⟩
  obtain ⟨s, hs⟩ := hanswer
  show ¬ Agrees (solve c {} ⟨"mruv_velocity", "v",
    [("v0", .text "0"), ("a", .real 1.0), ("t", .real 2.0)]⟩).1 _
  rw [hs, hraw]
  rintro ⟨⟩
end Formulary.Service
