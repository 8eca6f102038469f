import Formulary.Datum
import Formulary.Numeric.Residual
import Formulary.Numeric.Search

/-!
# Failures

What can go wrong between a request and its answer, and what the user is told. A failure that quotes
a value which cannot be written is not told (`Failure.isTold`). `Stop` adds the other ways in which a
computation ends without an answer and without a failure that it reports.
-/

namespace Formulary

open Formulary.Numeric

/-- Why no root was found numerically. -/
inductive NoRoot where
  | noResidual (e : ResidualError)
  | undefinedInterval
  | notFinite

/-- A failure to answer a request. -/
inductive Failure where
  | missingVariable (name : String)
  | invalidNumber (name : String) (raw : Datum)
  | unknownVariable (name equation : String)
  | unknownEquation (key : String)
  | noRoot (unknown : String) (reason : NoRoot)

/-- What is said about a root that was not found. -/
def NoRoot.detail : NoRoot → String
  | .noResidual (.notAnEquation e) => "formula could not be parsed (" ++ e.message ++ ")"
  | .noResidual .absentUnknown => "the unknown does not appear in the equation"
  | .noResidual .doubleUnderscore =>
    "formula could not be parsed (" ++ (CompileError.message? .doubleUnderscore).getD "" ++ ")"
  | .noResidual .malformed => "formula could not be parsed"
  | .noResidual (.unbound names) => "no value for " ++ ", ".intercalate names
  | .undefinedInterval => "the equation is undefined across the search interval"
  | .notFinite => "bisection produced a non-finite value"

/-- What the user is told. -/
def Failure.message : Failure → String
  | .missingVariable name => "Missing value for variable '" ++ name ++ "'"
  | .invalidNumber name raw => "Invalid value for variable '" ++ name ++ "': " ++ raw.shown
  | .unknownVariable name equation =>
    "Cannot solve equation '" ++ equation ++ "' for '" ++ name ++ "'"
  | .unknownEquation key => "Unknown equation: '" ++ key ++ "'"
  | .noRoot unknown reason =>
    "Could not find a numeric solution for '" ++ unknown ++ "': " ++ reason.detail

/--
Whether the user is told of a failure. A message quotes the value that is no number; quoting one that
cannot be written ends the computation instead.
-/
def Failure.isTold : Failure → Bool
  | .invalidNumber _ raw => raw.isWritable
  | _ => true

/-- How a computation ends without an answer. -/
inductive Stop where
  | failure (f : Failure)
  | interrupted (i : Interruption)
  /-- a tangent without slope, under settings that do not count it as flat -/
  | zeroSlope

end Formulary
