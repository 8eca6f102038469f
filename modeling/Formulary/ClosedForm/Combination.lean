import Formulary.Formula.Names

/-!
# Combinations of kernels

A symbolic expression is kept as a linear combination of products of powers of kernels. A kernel is
what cannot be taken apart further: a symbol, `π`, `e`, a number under a root, a sum that stays in
parentheses, a function of combinations, or a power whose exponent is symbolic. Kernels are
numbered in a tower, each one built from earlier ones only, so that equal kernels have equal
numbers and like terms can be collected.
-/

namespace Formulary.ClosedForm

open Formulary.Formula

/--
A product of powers of kernels: kernels in the order of their numbers, with exponents other than
zero.
-/
abbrev Monomial := List (Nat × Rat)

/-- A sum of monomials in order, with coefficients other than zero. -/
abbrev Combination := List (Monomial × Rat)

/-- What combinations are built from. -/
inductive Kernel where
  | symbol (name : String)
  | pi
  | e
  /-- a number as the base of a root or of a symbolic power -/
  | number (q : Rat)
  /-- a sum that stays in parentheses -/
  | group (c : Combination)
  | apply (f : Function) (arguments : List Combination)
  /-- a kernel to the power of a monomial -/
  | power (base : Nat) (exponent : Monomial)
  deriving Repr, DecidableEq

/-- The kernels of an expression; each refers to earlier ones only. -/
abbrev Tower := Array Kernel

namespace Monomial

/-- The order of two factors, by kernel and then by exponent. -/
def compareFactors (f g : Nat × Rat) : Ordering :=
  (compare f.1 g.1).then (if f.2 < g.2 then .lt else if f.2 = g.2 then .eq else .gt)

/-- The order of monomials. -/
def order : Monomial → Monomial → Ordering
  | [], [] => .eq
  | [], _ => .lt
  | _, [] => .gt
  | f :: m, g :: n => (compareFactors f g).then (order m n)

/-- The product of two monomials; exponents of the same kernel are added. -/
def mul : Monomial → Monomial → Monomial
  | [], n => n
  | m, [] => m
  | (i, p) :: m, (j, q) :: n =>
    if i < j then (i, p) :: mul m ((j, q) :: n)
    else if j < i then (j, q) :: mul ((i, p) :: m) n
    else if p + q = 0 then mul m n
    else (i, p + q) :: mul m n
termination_by m n => m.length + n.length

/-- A power of a monomial. -/
def pow (m : Monomial) (r : Rat) : Monomial := if r = 0 then [] else m.map fun (i, p) => (i, p * r)

/-- The exponent of a kernel. -/
def exponent (m : Monomial) (i : Nat) : Rat := (m.lookup i).getD 0

/-- A monomial without a kernel. -/
def without (m : Monomial) (i : Nat) : Monomial := m.filter (·.1 != i)

end Monomial

namespace Combination

/-- A number as a combination. -/
def number (q : Rat) : Combination := if q = 0 then [] else [([], q)]

/-- A power of a kernel as a combination. -/
def kernel (i : Nat) (r : Rat) : Combination := [(if r = 0 then [] else [(i, r)], 1)]

/-- A combination with one more term. -/
def insert (m : Monomial) (a : Rat) : Combination → Combination
  | [] => if a = 0 then [] else [(m, a)]
  | (n, b) :: c =>
    match Monomial.order m n with
    | .lt => if a = 0 then (n, b) :: c else (m, a) :: (n, b) :: c
    | .eq => if a + b = 0 then c else (n, a + b) :: c
    | .gt => (n, b) :: insert m a c

/-- The sum of two combinations. -/
def add (c d : Combination) : Combination := c.foldl (fun d (m, a) => insert m a d) d

/-- A combination times a number. -/
def scale (q : Rat) (c : Combination) : Combination :=
  if q = 0 then [] else c.map fun (m, a) => (m, q * a)

/-- A combination with the opposite sign. -/
def neg (c : Combination) : Combination := scale (-1) c

/-- The difference of two combinations. -/
def sub (c d : Combination) : Combination := add c (neg d)

/-- The product of two combinations, multiplied out. -/
def mul (c d : Combination) : Combination :=
  c.foldl (fun sum (m, a) => d.foldl (fun sum (n, b) => insert (m.mul n) (a * b) sum) sum) []

/-- A natural power of a combination, multiplied out. -/
def powNat (c : Combination) : Nat → Combination
  | 0 => number 1
  | n + 1 => mul c (powNat c n)

/-- The number that a combination is. -/
def number? : Combination → Option Rat
  | [] => some 0
  | [([], q)] => some q
  | _ => none

/-- The numbers of the kernels in a combination, each once. -/
def kernels (c : Combination) : List Nat := (c.flatMap fun (m, _) => m.map (·.1)).eraseDups

end Combination

namespace Kernel

/-- The kernels that a kernel is built from. -/
def parts : Kernel → List Nat
  | .symbol _ | .pi | .e | .number _ => []
  | .group c => c.kernels
  | .apply _ args => args.flatMap Combination.kernels
  | .power base exponent => base :: exponent.map (·.1)

end Kernel

namespace Tower

/-- For every kernel whether it is one that is asked for, or is built from one. -/
def dependence (t : Tower) (p : Kernel → Bool) : Array Bool :=
  t.foldl (fun seen k => seen.push (p k || k.parts.any fun i => seen.getD i false)) #[]

/-- For every kernel whether a symbol occurs in it. -/
def symbolic (t : Tower) : Array Bool := t.dependence fun k => k matches .symbol _

/-- For every kernel whether a given symbol occurs in it. -/
def dependsOn (t : Tower) (name : String) : Array Bool := t.dependence fun k => k == .symbol name

/-- Whether a marked kernel occurs in a combination. -/
def occurs (marks : Array Bool) (c : Combination) : Bool :=
  c.kernels.any fun i => marks.getD i false

end Tower

/-- A computation that may add kernels to a tower, and that may have no finite result. -/
abbrev Making := OptionT (StateM Tower)

/-- The number of a kernel, which is added to the tower if it is new. -/
def intern (k : Kernel) : Making Nat := do
  let t ← get
  match t.findIdx? (· == k) with
  | some i => return i
  | none =>
    set (t.push k)
    return t.size

/-- A kernel of the tower. -/
def kernelAt (i : Nat) : Making Kernel := do
  match (← get)[i]? with
  | some k => return k
  | none => failure

end Formulary.ClosedForm
