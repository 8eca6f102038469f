import Formulary.Trace

/-!
# Solving an equation numerically

The residual of a formula is built and searched for a root; the trace names the starting points
whose descents failed and the way in which the root was found.
-/

namespace Formulary.Numeric

/-- The steps of a search and its answer. -/
structure Report where
  trace : Trace
  result : Except Stop (Outcome Float)

/-- The steps and the answer of a finished search. -/
def Search.report (unknown : String) (s : Search Float) : Report :=
  let failed := s.failedGuesses.map Step.descentFailed
  match s.result with
  | .ok o => ⟨failed ++ [.found o], .ok o⟩
  | .error .undefinedInterval => ⟨failed, .error (.failure (.noRoot unknown .undefinedInterval))⟩
  | .error .notFinite => ⟨failed, .error (.failure (.noRoot unknown .notFinite))⟩
  | .error .zeroSlope => ⟨failed, .error .zeroSlope⟩

/-- The search for the value of an unknown in a formula whose other symbols are bound. -/
def solve (s : Settings Float) (formula : String) (bindings : List (String × Float))
    (unknown : String) : Report :=
  match Residual.build formula bindings unknown with
  | .error e => ⟨[], .error (.failure (.noRoot unknown (.noResidual e)))⟩
  | .ok r =>
    match search s r.valueAt with
    | .ok s => s.report unknown
    | .error i => ⟨[], .error (.interrupted i)⟩

end Formulary.Numeric
