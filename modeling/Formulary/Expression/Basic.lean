import Formulary.Formula.Names

/-!
# Expressions

The syntax trees of one side of a formula, or of any other expression that can be evaluated.
Numerals are kept as they are written: `decimal n e` is `n · 10 ^ e`, so that an evaluator may
round it and a symbolic reader need not.
-/

namespace Formulary

/-- Operators with one operand. -/
inductive UnaryOp where
  | plus | minus | invert | not
  deriving Repr, DecidableEq

/-- Operators with two operands. -/
inductive BinaryOp where
  | add | sub | mul | div | floorDiv | mod | matMul | pow
  | bitAnd | bitOr | shiftLeft | shiftRight
  | lt | le | gt | ge | eq | ne | same | notSame | member | notMember
  | and | or
  deriving Repr, DecidableEq

/-- Syntax trees of expressions. -/
inductive Expression where
  | integer (n : Nat)
  | decimal (coefficient : Nat) (exponent : Int)
  | imaginary (coefficient : Nat) (exponent : Int)
  | text (s : String)
  | truth (b : Bool)
  | nothing
  | ellipsis
  | name (s : String)
  | unary (op : UnaryOp) (e : Expression)
  | binary (op : BinaryOp) (a b : Expression)
  | conditional (condition consequent alternative : Expression)
  | call (function : Expression) (arguments : List Expression)
  | part (e : Expression) (name : String)
  | index (e i : Expression)
  | tuple (elements : List Expression)
  | list (elements : List Expression)
  deriving Repr

namespace BinaryOp

/--
How tightly an operator binds; a greater number binds tighter. Level 3 belongs to the operator
`not` and level 10 to the signs.
-/
def level : BinaryOp → Nat
  | .or => 1
  | .and => 2
  | .lt | .le | .gt | .ge | .eq | .ne | .same | .notSame | .member | .notMember => 4
  | .bitOr => 5
  | .bitAnd => 6
  | .shiftLeft | .shiftRight => 7
  | .add | .sub => 8
  | .mul | .div | .floorDiv | .mod | .matMul => 9
  | .pow => 11

/-- Whether an operator compares its operands; comparisons form chains. -/
def isComparison (op : BinaryOp) : Bool := op.level == 4

/--
The least level of the right operand: a power takes a signed operand, all others a tighter one.
-/
def rightLevel (op : BinaryOp) : Nat := if op = .pow then 10 else op.level + 1

end BinaryOp

namespace Expression

mutual

/-- The names in an expression, those of parts included, from left to right. -/
def names : Expression → List String
  | .name s => [s]
  | .unary _ e => e.names
  | .binary _ a b => a.names ++ b.names
  | .conditional c a b => c.names ++ a.names ++ b.names
  | .call f args => f.names ++ namesOfAll args
  | .part e s => e.names ++ [s]
  | .index e i => e.names ++ i.names
  | .tuple es => namesOfAll es
  | .list es => namesOfAll es
  | .integer _ | .decimal _ _ | .imaginary _ _ | .text _ | .truth _ | .nothing | .ellipsis => []

/-- The names in a list of expressions. -/
def namesOfAll : List Expression → List String
  | [] => []
  | e :: es => e.names ++ namesOfAll es

end

/--
A chain of comparisons `a < b ≤ c`: every neighbouring pair is compared, and all comparisons have
to hold.
-/
def comparisonChain (first : Expression) : List (BinaryOp × Expression) → Expression
  | [] => first
  | [(op, e)] => .binary op first e
  | (op, e) :: rest => .binary .and (.binary op first e) (comparisonChain e rest)

end Expression
end Formulary
