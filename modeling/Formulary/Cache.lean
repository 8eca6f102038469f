import Formulary.Number.Double

/-!
# The cache of solutions

Solved values are kept under the formula, the unknown and the bindings, whose order does not
matter. The cache counts how often it was asked with and without success. Entries keep the order of
insertion, and nothing is dropped but by `clear`.
-/

namespace Formulary

/-- What a solution is kept under; the bindings stand in the order of their names. -/
structure CacheKey where
  formula : String
  unknown : String
  bindings : List (String × Float)

/-- A kept solution. -/
structure Cached where
  value : Float
  converged : Bool

/-- The kept solutions and the counts of successful and failed look-ups. -/
structure Cache where
  entries : List (CacheKey × Cached) := []
  hits : Nat := 0
  misses : Nat := 0

namespace CacheKey

/-- The key of a request. -/
def of (formula unknown : String) (bindings : List (String × Float)) : CacheKey :=
  ⟨formula, unknown, bindings.mergeSort fun a b => a.1 ≤ b.1⟩

/--
Whether two bound values are equal. Zeros of either sign are. What is no number can only be the
value of a constant, which is the same one wherever it is bound.
-/
def sameValue (x y : Float) : Bool := x == y || x.isNaN && y.isNaN

/-- Whether two rows of bindings have the same names and equal values. -/
def sameBindings : List (String × Float) → List (String × Float) → Bool
  | [], [] => true
  | (n, x) :: bs, (m, y) :: cs => n == m && sameValue x y && sameBindings bs cs
  | _, _ => false

/-- Whether two keys are equal. -/
def same (k l : CacheKey) : Bool :=
  k.formula == l.formula && k.unknown == l.unknown && sameBindings k.bindings l.bindings

end CacheKey

namespace Cache

/-- The solution kept under a key. -/
def find? (c : Cache) (key : CacheKey) : Option Cached :=
  (c.entries.find? fun e => e.1.same key).map (·.2)

/-- A look-up, which is counted. -/
def get (c : Cache) (key : CacheKey) : Option Cached × Cache :=
  match c.find? key with
  | some v => (some v, { c with hits := c.hits + 1 })
  | none => (none, { c with misses := c.misses + 1 })

/-- Entries with a solution in place of an old one under the same key, or at the end. -/
def putEntry (key : CacheKey) (v : Cached) : List (CacheKey × Cached) → List (CacheKey × Cached)
  | [] => [(key, v)]
  | (k, w) :: rest => if k.same key then (k, v) :: rest else (k, w) :: putEntry key v rest

/-- The cache with a solution under a key. -/
def put (c : Cache) (key : CacheKey) (v : Cached) : Cache :=
  { c with entries := putEntry key v c.entries }

/-- The cache without entries and with its counts at zero. -/
def clear (_ : Cache) : Cache := {}

/-- The number of kept solutions. -/
def size (c : Cache) : Nat := c.entries.length

end Cache
end Formulary
