import Formulary.Expression.Functions
import Formulary.Expression.Parser
import Formulary.Text.Containment

/-!
# Evaluating expressions

`Expression.eval` gives an expression its value in a scope. An operation without a result makes the
whole expression undefined; only three things go beyond that and interrupt the caller
(`Interruption`): a name without a value, a part that a value does not have, and an index out of
range. `Compiled.value` is a double: no number where the expression is undefined, or where its
value is not real.
-/

namespace Formulary

open Formulary.Number Formulary.Formula Formulary.Text

/-- The values of expressions. -/
inductive Value where
  | scalar (s : Scalar)
  | truth (b : Bool)
  | nothing
  | ellipsis
  | text (s : String)
  | tuple (elements : List Value)
  | list (elements : List Value)
  | function (f : Function)
  deriving Repr

/-- What stops an evaluation for good. -/
inductive Interruption where
  | unbound (name : String)
  | noPart
  | outOfRange
  deriving Repr, DecidableEq

/-- Why an expression has no value. -/
inductive EvalError where
  | undefined (reason : Undefined)
  | interrupted (cause : Interruption)
  deriving Repr, DecidableEq

/-- What is said of a name without a value. -/
def Interruption.message? : Interruption → Option String
  | .unbound name => some ("name '" ++ name ++ "' is not defined")
  | _ => none

namespace Value

/-- An operation of numbers as an operation of an evaluation. -/
def ofScalar (r : Except Undefined Scalar) : Except EvalError Value :=
  match r with
  | .ok s => .ok (.scalar s)
  | .error u => .error (.undefined u)

/-- The number that a value is; truth values count as one and zero. -/
def scalar? : Value → Option Scalar
  | .scalar s => some s
  | .truth b => some (.integer (if b then 1 else 0))
  | _ => none

/-- The integer that a value is. -/
def integer? (v : Value) : Option Int :=
  match v.scalar? with
  | some (.integer n) => some n
  | _ => none

/-- Whether a value counts as true: numbers but zero, and texts and lists that are not empty. -/
def isTrue : Value → Bool
  | .scalar s => s.isTrue
  | .truth b => b
  | .nothing => false
  | .text s => s != ""
  | .tuple es | .list es => !es.isEmpty
  | .ellipsis | .function _ => true

mutual

/-- Whether two values are equal. -/
def eq : Value → Value → Bool
  | .text s, .text t => s == t
  | .nothing, .nothing | .ellipsis, .ellipsis => true
  | .tuple es, .tuple es' | .list es, .list es' => eqAll es es'
  | .function f, .function g => f == g
  | v, w =>
    match v.scalar?, w.scalar? with
    | some s, some t => s.eq t
    | _, _ => false

/-- Whether two lists of values are equal element by element. -/
def eqAll : List Value → List Value → Bool
  | [], [] => true
  | v :: vs, w :: ws => eq v w && eqAll vs ws
  | _, _ => false

end

/-- An operation on the numbers that two values are. -/
def onScalars (f : Scalar → Scalar → Except Undefined Scalar) (v w : Value) :
    Except EvalError Value :=
  match v.scalar?, w.scalar? with
  | some s, some t => ofScalar (f s t)
  | _, _ => .error (.undefined .operands)

/-- An operation on the integers that two values are. -/
def onIntegers (f : Int → Int → Except Undefined Int) (v w : Value) : Except EvalError Value :=
  match v.integer?, w.integer? with
  | some m, some n => ofScalar (.integer <$> f m n)
  | _, _ => .error (.undefined .operands)

/-- The sum of two values: numbers are added, texts, tuples and lists are put one after the other. -/
def add (v w : Value) : Except EvalError Value :=
  match v, w with
  | .text s, .text t => .ok (.text (s ++ t))
  | .tuple es, .tuple es' => .ok (.tuple (es ++ es'))
  | .list es, .list es' => .ok (.list (es ++ es'))
  | v, w => onScalars Scalar.add v w

/-- Whether a value has its elements in a row. -/
def isSequence : Value → Bool
  | .text _ | .tuple _ | .list _ => true
  | _ => false

/-- Texts, tuples and lists of more elements than this do not fit into memory. -/
def maxLength : Nat := 4294967296

/-- A row of elements, several times; not at all if the number of times is negative. -/
def copies {α : Type} (n : Int) (es : List α) : Except EvalError (List α) :=
  if maxLength < n.toNat * es.length then .error (.undefined .overflow)
  else .ok (List.replicate n.toNat es).flatten

/-- A text, a tuple or a list, several times. -/
def repeated (v w : Value) : Except EvalError Value :=
  match v, w.integer? with
  | .text s, some n => do return .text (String.ofList (← copies n s.toList))
  | .tuple es, some n => do return .tuple (← copies n es)
  | .list es, some n => do return .list (← copies n es)
  | _, _ => .error (.undefined .operands)

/-- The product of two values: of numbers, or of a text, a tuple or a list and an integer. -/
def mul (v w : Value) : Except EvalError Value :=
  if v.isSequence then repeated v w
  else if w.isSequence then repeated w v
  else onScalars Scalar.mul v w

/-- An ordering of two numbers that are not complex. -/
def orderedScalars (f : Ordering → Bool) (v w : Value) : Except EvalError Value :=
  match v.scalar?, w.scalar? with
  | some s, some t =>
    if s.isComplex || t.isComplex then .error (.undefined .operands)
    else .ok (.truth ((s.order? t).any f))
  | _, _ => .error (.undefined .operands)

mutual

/--
An ordering of two values: numbers but complex ones, and texts. Tuples and lists compare by their
first elements that differ, or else by their lengths.
-/
def ordered (f : Ordering → Bool) : Value → Value → Except EvalError Value
  | .text s, .text t => .ok (.truth (f (compare s t)))
  | .tuple es, .tuple es' | .list es, .list es' => orderedAll f es es'
  | v, w => orderedScalars f v w

/-- The same ordering of the elements of two tuples or two lists. -/
def orderedAll (f : Ordering → Bool) : List Value → List Value → Except EvalError Value
  | [], [] => .ok (.truth (f .eq))
  | [], _ :: _ => .ok (.truth (f .lt))
  | _ :: _, [] => .ok (.truth (f .gt))
  | v :: vs, w :: ws => if eq v w then orderedAll f vs ws else ordered f v w

end

/-- Whether a value is an element of another. -/
def isMember (v : Value) : Value → Except EvalError Bool
  | .tuple es | .list es => .ok (es.any (eq v))
  | .text t =>
    match v with
    | .text s => .ok (holds s.toList t.toList)
    | _ => .error (.undefined .operands)
  | _ => .error (.undefined .operands)

/-- Bit by bit, an operation of integers in two's complement that is given on naturals. -/
def bitwise (onNaturals : Nat → Nat → Nat) (complement : Bool → Bool → Bool) (m n : Int) : Int :=
  -- Both operands are brought to naturals modulo a power of two above them.
  let width := max m.natAbs.log2 n.natAbs.log2 + 2
  let modulus : Int := Nat.pow 2 width
  let r : Int := onNaturals (m.emod modulus).toNat (n.emod modulus).toNat
  if complement (decide (m < 0)) (decide (n < 0)) then r - modulus else r

/--
The value of a binary operator other than `and` and `or`. The remainder of a text, which would fill
in its blanks, is left undefined.
-/
def binary : BinaryOp → Value → Value → Except EvalError Value
  | .add => add
  | .sub => onScalars Scalar.sub
  | .mul => mul
  | .div => onScalars Scalar.div
  | .floorDiv => onScalars Scalar.floorDiv
  | .mod => onScalars Scalar.mod
  | .pow => onScalars Scalar.pow
  | .matMul => fun _ _ => .error (.undefined .operands)
  | .bitAnd => onIntegers fun m n => .ok (bitwise (· &&& ·) (· && ·) m n)
  | .bitOr => onIntegers fun m n => .ok (bitwise (· ||| ·) (· || ·) m n)
  | .shiftLeft => onIntegers fun m n =>
    if n < 0 then .error .domain
    else if (Scalar.maxPowerBits : Int) < n then (if m = 0 then .ok 0 else .error .overflow)
    else .ok (m * Nat.pow 2 n.toNat)
  | .shiftRight => onIntegers fun m n =>
    if n < 0 then .error .domain
    else if (Scalar.maxPowerBits : Int) < n then .ok (if m < 0 then -1 else 0)
    else .ok (m.fdiv (Nat.pow 2 n.toNat))
  | .lt => ordered (· == .lt)
  | .le => ordered (· != .gt)
  | .gt => ordered (· == .gt)
  | .ge => ordered (· != .lt)
  | .eq | .same => fun v w => .ok (.truth (eq v w))
  | .ne | .notSame => fun v w => .ok (.truth (!eq v w))
  | .member => fun v w => return .truth (← isMember v w)
  | .notMember => fun v w => return .truth (!(← isMember v w))
  | .and => fun v w => .ok (if v.isTrue then w else v)
  | .or => fun v w => .ok (if v.isTrue then v else w)

/-- The value of a unary operator. -/
def unary : UnaryOp → Value → Except EvalError Value
  | .not, v => .ok (.truth (!v.isTrue))
  | .invert, v =>
    match v.integer? with
    | some n => .ok (.scalar (.integer (-n - 1)))
    | none => .error (.undefined .operands)
  | .plus, v => ofScalar (v.scalar?.elim (.error .operands) .ok)
  | .minus, v => ofScalar (v.scalar?.elim (.error .operands) (.ok ·.neg))

/-- The parts of a number that can be asked for by name. -/
def part (v : Value) (name : String) : Except EvalError Value :=
  match v.scalar?, name with
  | some (.integer n), "real" | some (.integer n), "numerator" => .ok (.scalar (.integer n))
  | some (.integer _), "imag" => .ok (.scalar (.integer 0))
  | some (.integer _), "denominator" => .ok (.scalar (.integer 1))
  | some (.real x), "real" => .ok (.scalar (.real x))
  | some (.real _), "imag" => .ok (.scalar (.real 0.0))
  | some (.complex re _), "real" => .ok (.scalar (.real re))
  | some (.complex _ im), "imag" => .ok (.scalar (.real im))
  | _, _ => .error (.interrupted .noPart)

/-- The element at an index, counted from the end if it is negative. -/
def element (es : List Value) (i : Value) : Except EvalError Value :=
  match i.integer? with
  | none => .error (.undefined .operands)
  | some i =>
    let i := if i < 0 then i + es.length else i
    match if i < 0 then none else es[i.toNat]? with
    | some v => .ok v
    | none => .error (.interrupted .outOfRange)

/-- The element of a value at an index. -/
def index (v i : Value) : Except EvalError Value :=
  match v with
  | .tuple es | .list es => element es i
  | .text s => element (s.toList.map fun c => .text (String.singleton c)) i
  | _ => .error (.undefined .operands)

/-- The value of a call. -/
def call (f : Value) (arguments : List Value) : Except EvalError Value :=
  match f, arguments.mapM scalar? with
  | .function f, some ss => ofScalar (f.apply ss)
  | _, _ => .error (.undefined .operands)

/-- The names that have a value in every scope. -/
def builtin? (name : String) : Option Value :=
  match Function.ofName? name with
  | some f => some (.function f)
  | none =>
    if name = "pi" then some (.scalar (.real 3.141592653589793))
    else if name = "e" then some (.scalar (.real 2.718281828459045))
    else none

/-- The double that a value is; no number if it is not real. -/
def toFloat : Value → Float
  | .scalar (.complex re im) => if im == 0 then re else 0.0 / 0.0
  | .text s => (readFloat? s).getD (0.0 / 0.0)
  | v =>
    match v.scalar?.map Scalar.toFloat with
    | some (.ok x) => x
    | _ => 0.0 / 0.0

end Value

namespace Expression

/-- Values of names, in front of the built-in ones. -/
abbrev Scope := List (String × Float)

/-- The value of a name in a scope. -/
def lookup (scope : Scope) (name : String) : Except EvalError Value :=
  match scope.lookup name with
  | some x => .ok (.scalar (.real x))
  | none =>
    match Value.builtin? name with
    | some v => .ok v
    | none => .error (.interrupted (.unbound name))

mutual

/-- The value of an expression in a scope; operands are evaluated from left to right. -/
def eval (scope : Scope) : Expression → Except EvalError Value
  | .integer n => .ok (.scalar (.integer n))
  | .decimal n e => .ok (.scalar (.real (Decimal.toFloat ⟨false, n, e⟩)))
  | .imaginary n e => .ok (.scalar (.complex 0.0 (Decimal.toFloat ⟨false, n, e⟩)))
  | .text s => .ok (.text s)
  | .truth b => .ok (.truth b)
  | .nothing => .ok .nothing
  | .ellipsis => .ok .ellipsis
  | .name s => lookup scope s
  | .unary op e => do Value.unary op (← eval scope e)
  | .binary .and a b => do
    let v ← eval scope a
    if v.isTrue then eval scope b else return v
  | .binary .or a b => do
    let v ← eval scope a
    if v.isTrue then return v else eval scope b
  | .binary op a b => do
    let v ← eval scope a
    let w ← eval scope b
    Value.binary op v w
  | .conditional c a b => do
    let v ← eval scope c
    if v.isTrue then eval scope a else eval scope b
  | .call f args => do
    let f ← eval scope f
    let vs ← evalAll scope args
    f.call vs
  | .part e s => do (← eval scope e).part s
  | .index e i => do
    let v ← eval scope e
    let i ← eval scope i
    v.index i
  | .tuple es => return .tuple (← evalAll scope es)
  | .list es => return .list (← evalAll scope es)

/-- The values of expressions, from left to right. -/
def evalAll (scope : Scope) : List Expression → Except EvalError (List Value)
  | [] => .ok []
  | e :: es => do
    let v ← eval scope e
    let vs ← evalAll scope es
    return v :: vs

end

/-- The value of an expression as a double. -/
def value (e : Expression) (scope : Scope) : Except Interruption Float :=
  match e.eval scope with
  | .ok v => .ok v.toFloat
  | .error (.undefined _) => .ok (0.0 / 0.0)
  | .error (.interrupted i) => .error i

/-- The names that a scope has to bind, in the order of their code points and without repetition. -/
def freeNames (e : Expression) : List String :=
  ((e.names.filter fun s => (Value.builtin? s).isNone).eraseDups).mergeSort fun a b => a ≤ b

end Expression

/-- Why a text is no expression. -/
inductive CompileError where
  | doubleUnderscore
  | malformed
  deriving Repr, DecidableEq

/-- What is said of names with two underscores in a row. -/
def CompileError.message? : CompileError → Option String
  | .doubleUnderscore => some "Dunder names are not allowed in expressions"
  | .malformed => none

/-- The text with the power sign of formulas replaced by that of expressions. -/
def withPowerSigns (s : List Char) : List Char :=
  s.flatMap fun c => if c = '^' then ['*', '*'] else [c]

/-- The expression that a text spells, where `^` is a power. -/
def Expression.compile (s : List Char) : Except CompileError Expression :=
  if holds ['_', '_'] s then .error .doubleUnderscore
  else match Expression.ofText? (withPowerSigns s) with
    | some e => .ok e
    | none => .error .malformed

/--
What becomes of a text if the compiler runs out of resources on some texts, of which nothing is known
but that it may: nothing, or what is compiled.
-/
def Expression.compileWithin (givesUp : List Char → Bool) (s : List Char) :
    Option (Except CompileError Expression) :=
  if !holds ['_', '_'] s && givesUp (withPowerSigns s) then none else some (Expression.compile s)

end Formulary
