import Formulary.Proofs.Calculator.Completeness
import Formulary.Proofs.Formula.Selection
import Formulary.Proofs.Numeric.Residual

/-!
# Requests whose outcome is reported

A request has an answer, or a failure that the user is told, or else one of three things lies behind
its outcome (`Unreported`): an input that it needs cannot be written, its formula has a text that could
take a part or an element of a value, or slopes of zero do not count as flat (`solve_reported`). A
brace counts as such a text: mappings are not read here, but asking for a key that one lacks would not
be reported either.
-/

namespace Formulary

open Formulary.Numeric Formulary.Text Formulary.Formula

/-- Whether an outcome is an answer or a failure that the user is told. -/
def Stop.isReported {α : Type} : Except Stop α → Bool
  | .ok _ => true
  | .error (.failure f) => f.isTold
  | .error _ => false

namespace Numeric.Residual

/-- A residual that takes no part and no element of a value has a value everywhere. -/
lemma total_of_selectsNothing {formula : String} {bindings : List (String × Float)}
    {unknown : String} {r : Residual} (h : build formula bindings unknown = .ok r)
    (hr : r.expression.SelectsNothing) (x : Float) : ∃ y, r.valueAt x = .ok y := by
  cases hv : r.valueAt x with
  | ok y => exact ⟨y, rfl⟩
  | error i =>
    obtain ⟨-, _, _, hmem⟩ | ⟨-, _, _, hmem⟩ := valueAt_interrupted h hv
    · exact absurd rfl (hr _ hmem)
    · exact absurd rfl (hr _ hmem)

end Numeric.Residual

namespace Calculator

variable {c : Calculator} {cache : Cache} {e : EquationRef} {inputs : Table Datum}
  {unknown : String}

/-- What lies behind an outcome of a request that is not reported. -/
inductive Unreported (c : Calculator) (q : Equation) (inputs : Table Datum) (unknown : String) :
    Stop → Prop where
  /-- the message would quote an input that cannot be written -/
  | unwritable {name : String} {raw : Datum} :
    q.Needs unknown name → inputs.get? name = some raw → raw.isWritable = false →
    Unreported c q inputs unknown (.failure (.invalidNumber name raw))
  /-- the formula has a bracket `[`, a brace, or a point that does not stand before a digit -/
  | selection {i : Interruption} :
    selectsNothing q.formula.toList = false ∨ '\x7b' ∈ q.formula.toList →
    Unreported c q inputs unknown (.interrupted i)
  /-- a tangent without slope is not given up -/
  | slope : ¬ 0.0 < c.settings.flatSlope → Unreported c q inputs unknown .zeroSlope

/-- A request is interrupted only where its formula could select something. -/
lemma selects_of_interrupted {i : Interruption}
    (h : (c.solve cache e inputs unknown).1 = .error (.interrupted i)) :
    ∃ q, c.equation e = .ok q ∧ selectsNothing q.formula.toList = false := by
  obtain ⟨q, bindings, hq, hresult⟩ := result_of_solve h nofun
  refine ⟨q, hq, ?_⟩
  obtain ⟨r, x, hbuild, hx⟩ := Residual.solve_interrupted hresult
  obtain ⟨d, hd, -, he, -⟩ := Residual.build_eq_ok.1 hbuild
  rw [String.toList_ofList] at hd
  by_contra hselects
  have hnothing := selectsNothing_of_compile (Bool.of_not_eq_false hselects) hd he
  obtain ⟨y, hy⟩ := Residual.total_of_selectsNothing hbuild hnothing x
  cases hy.symm.trans hx

/-- A request divides by a slope of zero only where such slopes do not count as flat. -/
lemma unreported_zeroSlope (h : (c.solve cache e inputs unknown).1 = .error .zeroSlope) :
    ∃ q, c.equation e = .ok q ∧ Unreported c q inputs unknown .zeroSlope := by
  obtain ⟨q, bindings, hq, hresult⟩ := result_of_solve h nofun
  exact ⟨q, hq, .slope fun hflat => Residual.solve_ne_zeroSlope hflat hresult⟩

/-- A failure that is not told quotes an input that is needed and cannot be written. -/
lemma unreported_failure {f : Failure} (h : (c.solve cache e inputs unknown).1 = .error (.failure f))
    (hf : f.isTold = false) :
    ∃ q, c.equation e = .ok q ∧ Unreported c q inputs unknown (.failure f) := by
  cases failsWith_of_solve h with
  | equation hnone => cases hf
  | «unknown» hq hinvalid => cases hf
  | root hq => cases hf
  | @«variable» e q name f hq hfirst =>
    obtain ⟨hc, raw, rfl, hget, hraw⟩ := unwritable_of_variableValue hfirst.fails hf
    exact ⟨q, hq, .unwritable ⟨hfirst.mem, hfirst.ne_unknown, hc⟩ hget hraw⟩

/--
A request ends with an answer or with a failure that the user is told, unless one of three things lies
behind its outcome: an input that is needed cannot be written, the formula has a bracket `[`, a brace or
a point that does not stand before a digit, or slopes of zero do not count as flat.
-/
theorem solve_reported (c : Calculator) (cache : Cache) (e : EquationRef) (inputs : Table Datum)
    (unknown : String) :
    Stop.isReported (c.solve cache e inputs unknown).1 ∨
      ∃ q stop, c.equation e = .ok q ∧ (c.solve cache e inputs unknown).1 = .error stop ∧
        Unreported c q inputs unknown stop := by
  cases h : (c.solve cache e inputs unknown).1 with
  | ok s => exact .inl rfl
  | error stop =>
    cases stop with
    | failure f =>
      cases hf : f.isTold with
      | true => exact .inl hf
      | false =>
        obtain ⟨q, hq, hcause⟩ := unreported_failure h hf
        exact .inr ⟨q, _, hq, rfl, hcause⟩
    | interrupted i =>
      obtain ⟨q, hq, hselects⟩ := selects_of_interrupted h
      exact .inr ⟨q, _, hq, rfl, .selection (.inl hselects)⟩
    | zeroSlope =>
      obtain ⟨q, hq, hcause⟩ := unreported_zeroSlope h
      exact .inr ⟨q, _, hq, rfl, hcause⟩

/-- A calculator without a catalog that finds no closed forms. -/
def bare : Calculator :=
  ⟨⟨[], [], [], []⟩, .standard, fun _ _ _ => ⟨[.noClosedForm .notFound], none⟩⟩

/-- The search for `y` in `y = x.e` is interrupted at its first point. -/
lemma search_part_interrupted :
    (Numeric.solve .standard "y = x.e" [("x", 2.0)] "y").result = .error (.interrupted .noPart) := by
  have hbuild : Residual.build "y = x.e" [("x", 2.0)] "y" =
      .ok ⟨.binary .sub (.name "_s0") (.part (.name "_s1") "e"), "_s0", [("_s1", 2.0)]⟩ := by
    refine Residual.build_eq_ok.2 ⟨"(y) - (x.e)".toList, rfl, ?_⟩
    rw [Formula.aliased_eq]
    exact ⟨by decide +kernel, by decide +kernel, by rfl, by decide +kernel⟩
  simp only [Numeric.solve, hbuild]
  rfl

/-- A formula that takes a part which its value does not have is not reported. -/
theorem solve_not_reported :
    ¬ Stop.isReported (bare.solve {} (.given ⟨"", "", "y = x.e", ["y", "x"], "", ""⟩)
      [("x", .text "2")] "y").1 := by
  have hbindings : bare.bindings ⟨"", "", "y = x.e", ["y", "x"], "", ""⟩ [("x", .text "2")] "y" =
      .ok [("x", 2.0)] := by rfl
  have hcanonical : String.ofList (Formula.canonical "y = x.e".toList) = "y = x.e" := by
    decide +kernel
  have hcompute : bare.compute "y = x.e" [("x", 2.0)] "y" = .error (.interrupted .noPart) := by
    simp only [compute, bare, search_part_interrupted]
  simp only [solve, equation, hbindings, answer, hcanonical, hcompute]
  simp [Cache.get, Cache.find?, Stop.isReported]

end Calculator
end Formulary
