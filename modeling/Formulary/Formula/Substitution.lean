import Formulary.Formula.Degrees
import Formulary.Number.Notation

/-!
# Substituting values

A value is written in place of every occurrence of a name that is no part of a longer word or of a
primed name. It is the shortest text that reads back, in parentheses so that a sign stays with it
under a power.
-/

namespace Formulary.Formula

open Formulary.Text Formulary.Number

/-- Whether a character glues a name to what stands beside it. -/
def adheres (c : Char) : Bool := isWord c || c == '\''

/-- Replaces one free-standing occurrence of a name. -/
def occurrence (name replacement : List Char) : Rule := fun before following =>
  if before.any adheres then none else
    match dropPrefix? name following with
    | some rest => if rest.head?.any adheres then none else some (replacement, name.length)
    | none => none

/-- A value as it is written into a formula. -/
def literal (value : Float) : List Char := '(' :: (shortestText value).toList ++ [')']

/-- The formula with a value in place of every free-standing occurrence of a name. -/
def substitute (s : List Char) (name : String) (value : Float) : List Char :=
  replaceBy (occurrence name.toList (literal value)) s

/-- Bindings with the longest names first; names of one length keep their order. -/
def longestFirst (bindings : List (String × Float)) : List (String × Float) :=
  bindings.mergeSort fun a b => b.1.length ≤ a.1.length

/-- The formula with all bound values written in, the longest names first. -/
def substituteAll (s : List Char) (bindings : List (String × Float)) : List Char :=
  (longestFirst bindings).foldl (fun s (name, value) => substitute s name value) s

end Formulary.Formula
