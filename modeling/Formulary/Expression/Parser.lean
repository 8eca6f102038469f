import Formulary.Expression.Token

/-!
# Reading expressions

Operators are read by precedence climbing: `expression` reads an operand and then all operators
that bind at least as tightly as asked. A sign binds looser than a power on its right and tighter
than any other operator, powers associate to the right, all other operators to the left, and
comparisons form chains. The fuel bounds the depth of the recursion, which the number of tokens
bounds in turn.
-/

namespace Formulary.Parser

/-- The binary operator that a token denotes. -/
def binaryOp? : Token → Option BinaryOp
  | .sign s =>
    [("+", BinaryOp.add), ("-", .sub), ("*", .mul), ("/", .div), ("//", .floorDiv), ("%", .mod),
     ("@", .matMul), ("**", .pow), ("&", .bitAnd), ("|", .bitOr), ("<<", .shiftLeft),
     (">>", .shiftRight), ("<", .lt), ("<=", .le), (">", .gt), (">=", .ge), ("==", .eq),
     ("!=", .ne)].lookup s
  | .word s => [("and", BinaryOp.and), ("or", .or), ("is", .same), ("in", .member)].lookup s
  | _ => none

/-- The operator at the beginning of some tokens; `is not` and `not in` are written with two. -/
def takeOperator? : List Token → Option (BinaryOp × List Token)
  | .word "is" :: .word "not" :: rest => some (.notSame, rest)
  | .word "not" :: .word "in" :: rest => some (.notMember, rest)
  | t :: rest => (binaryOp? t).map (·, rest)
  | [] => none

/-- The sign that a token denotes in front of an operand. -/
def sign? : Token → Option UnaryOp
  | .sign "-" => some .minus
  | .sign "+" => some .plus
  | .sign "~" => some .invert
  | _ => none

/-- The texts of adjacent quoted tokens joined together. -/
def takeTexts (s : String) : List Token → String × List Token
  | .text t :: rest => takeTexts (s ++ t) rest
  | rest => (s, rest)

mutual

/-- An expression whose operators bind at least at a level; level zero admits conditionals. -/
def expression (level : Nat) : (fuel : Nat) → List Token → Option (Expression × List Token)
  | 0, _ => none
  | fuel + 1, ts => do
    let (e, ts) ← operand level fuel ts
    climb level e fuel ts

/-- Operators and right operands that follow a left operand. -/
def climb (level : Nat) (left : Expression) :
    (fuel : Nat) → List Token → Option (Expression × List Token)
  | 0, _ => none
  | fuel + 1, ts =>
    match ts, takeOperator? ts with
    | .word "if" :: ts, _ =>
      if level = 0 then do
        let (condition, ts) ← expression 1 fuel ts
        match ts with
        | .word "else" :: ts =>
          let (alternative, ts) ← expression 0 fuel ts
          some (.conditional condition left alternative, ts)
        | _ => none
      else some (left, .word "if" :: ts)
    | ts, some (op, ts') =>
      if op.level < level then some (left, ts)
      else if op.isComparison then do
        let (chain, ts) ← comparisons fuel ts
        climb level (left.comparisonChain chain) fuel ts
      else do
        let (right, ts) ← expression op.rightLevel fuel ts'
        climb level (.binary op left right) fuel ts
    | ts, none => some (left, ts)

/-- The comparisons of a chain. -/
def comparisons :
    (fuel : Nat) → List Token → Option (List (BinaryOp × Expression) × List Token)
  | 0, _ => none
  | fuel + 1, ts =>
    match takeOperator? ts with
    | some (op, ts') =>
      if op.isComparison then do
        let (e, ts) ← expression op.rightLevel fuel ts'
        let (chain, ts) ← comparisons fuel ts
        some ((op, e) :: chain, ts)
      else some ([], ts)
    | none => some ([], ts)

/-- An operand: a signed or negated one, or an atom with what is applied to it. -/
def operand (level : Nat) : (fuel : Nat) → List Token → Option (Expression × List Token)
  | 0, _ => none
  | fuel + 1, ts =>
    match ts with
    | .word "not" :: ts =>
      if level ≤ 3 then do
        let (e, ts) ← expression 3 fuel ts
        some (.unary .not e, ts)
      else none
    | t :: ts =>
      match sign? t with
      | some op =>
        if level ≤ 10 then do
          let (e, ts) ← expression 10 fuel ts
          some (.unary op e, ts)
        else none
      | none => do
        let (e, ts) ← atom fuel (t :: ts)
        applied e fuel ts
    | [] => none

/-- A numeral, a name, a quoted text, or something in brackets. -/
def atom : (fuel : Nat) → List Token → Option (Expression × List Token)
  | 0, _ => none
  | fuel + 1, ts =>
    match ts with
    | .integer n :: ts => some (.integer n, ts)
    | .decimal n e :: ts => some (.decimal n e, ts)
    | .imaginary n e :: ts => some (.imaginary n e, ts)
    | .name s :: ts => some (.name s, ts)
    | .text s :: ts => let (s, ts) := takeTexts s ts; some (.text s, ts)
    | .word "True" :: ts => some (.truth true, ts)
    | .word "False" :: ts => some (.truth false, ts)
    | .word "None" :: ts => some (.nothing, ts)
    | .sign "..." :: ts => some (.ellipsis, ts)
    | .sign "(" :: ts => do
      let (es, comma, ts) ← elements ")" fuel ts
      match es, comma with
      | [e], false => some (e, ts)
      | es, _ => some (.tuple es, ts)
    | .sign "[" :: ts => do
      let (es, _, ts) ← elements "]" fuel ts
      some (.list es, ts)
    | _ => none

/-- Calls, parts and indices applied to an expression. -/
def applied (e : Expression) : (fuel : Nat) → List Token → Option (Expression × List Token)
  | 0, _ => none
  | fuel + 1, ts =>
    match ts with
    | .sign "(" :: ts => do
      let (es, _, ts) ← elements ")" fuel ts
      applied (.call e es) fuel ts
    | .sign "." :: .name s :: ts => applied (.part e s) fuel ts
    | .sign "[" :: ts => do
      let (es, comma, ts) ← elements "]" fuel ts
      match es, comma with
      | [], _ => none
      | [i], false => applied (.index e i) fuel ts
      | es, _ => applied (.index e (.tuple es)) fuel ts
    | ts => some (e, ts)

/--
Expressions with commas between them up to a closing bracket, which is dropped; the flag says
whether there was a comma. A comma may follow the last expression.
-/
def elements (close : String) :
    (fuel : Nat) → List Token → Option (List Expression × Bool × List Token)
  | 0, _ => none
  | fuel + 1, ts =>
    if ts.head? = some (.sign close) then some ([], false, ts.tail) else do
      let (e, ts) ← expression 0 fuel ts
      match ts with
      | .sign s :: ts =>
        if s = close then some ([e], false, ts)
        else if s = "," then do
          let (es, _, ts) ← elements close fuel ts
          some (e :: es, true, ts)
        else none
      | _ => none

end

/-- Expressions with commas between them up to the end. -/
def sequence : (fuel : Nat) → List Token → Option (List Expression × Bool)
  | 0, _ => none
  | fuel + 1, ts => do
    let (e, ts) ← expression 0 (4 * ts.length + 4) ts
    match ts with
    | [] => some ([e], false)
    | [.sign ","] => some ([e], true)
    | .sign "," :: ts => do
      let (es, _) ← sequence fuel ts
      some (e :: es, true)
    | _ => none

/-- The expression that tokens spell; without brackets, commas make a tuple of it. -/
def ofTokens? (ts : List Token) : Option Expression := do
  let ts := (ts.reverse.dropWhile (· == .lineEnd)).reverse
  match ← sequence (ts.length + 1) ts with
  | ([e], false) => some e
  | (es, _) => some (.tuple es)

end Formulary.Parser

namespace Formulary.Expression

/-- The expression that a text spells. -/
def ofText? (s : List Char) : Option Expression := do Parser.ofTokens? (← tokens? s)

end Formulary.Expression
