import Formulary.Cache
import Formulary.Calculator
import Formulary.Catalog.Basic
import Formulary.Catalog.Load
import Formulary.Catalog.Standard
import Formulary.ClosedForm.Attempt
import Formulary.ClosedForm.Coefficients
import Formulary.ClosedForm.Combination
import Formulary.ClosedForm.Construction
import Formulary.ClosedForm.Elimination
import Formulary.ClosedForm.Evaluation
import Formulary.ClosedForm.Fraction
import Formulary.ClosedForm.Lambert
import Formulary.ClosedForm.Polynomial
import Formulary.ClosedForm.Reading
import Formulary.ClosedForm.RealRoots
import Formulary.ClosedForm.RootChoice
import Formulary.ClosedForm.Roots
import Formulary.ClosedForm.Simplification
import Formulary.ClosedForm.Strategies
import Formulary.ClosedForm.Terms
import Formulary.Configuration
import Formulary.Datum
import Formulary.Display
import Formulary.Document.Content
import Formulary.Document.Cursor
import Formulary.Document.Literal
import Formulary.Document.Node
import Formulary.Document.Scalar
import Formulary.Document.Token
import Formulary.Expression.Basic
import Formulary.Expression.Eval
import Formulary.Expression.Functions
import Formulary.Expression.Parser
import Formulary.Expression.Scalar
import Formulary.Expression.Token
import Formulary.Failure
import Formulary.Formula.Alias
import Formulary.Formula.Degrees
import Formulary.Formula.Names
import Formulary.Formula.Sides
import Formulary.Formula.Substitution
import Formulary.Number.Double
import Formulary.Number.Notation
import Formulary.Number.Reading
import Formulary.Number.Remainder
import Formulary.Number.Rounding
import Formulary.Number.Shortest
import Formulary.Numeric.Arithmetic
import Formulary.Numeric.Bisection
import Formulary.Numeric.Newton
import Formulary.Numeric.Residual
import Formulary.Numeric.Search
import Formulary.Numeric.Settings
import Formulary.Numeric.Solve
import Formulary.Proofs.Calculator.Accounting
import Formulary.Proofs.Calculator.Answer
import Formulary.Proofs.Calculator.Bindings
import Formulary.Proofs.Calculator.Explanation
import Formulary.Proofs.Calculator.Key
import Formulary.Proofs.Calculator.Reporting
import Formulary.Proofs.Calculator.Transparency
import Formulary.Proofs.ClosedForm.Attempt
import Formulary.Proofs.Expression.Boundary
import Formulary.Proofs.Expression.Converts
import Formulary.Proofs.Expression.Degrees
import Formulary.Proofs.Expression.Enclosure
import Formulary.Proofs.Expression.Equality
import Formulary.Proofs.Expression.Interruption
import Formulary.Proofs.Expression.Lexing
import Formulary.Proofs.Expression.Nesting
import Formulary.Proofs.Expression.Numeral
import Formulary.Proofs.Expression.Rereading
import Formulary.Proofs.Expression.Scope
import Formulary.Proofs.Formula.Aliases
import Formulary.Proofs.Formula.Angles
import Formulary.Proofs.Formula.Conversion
import Formulary.Proofs.Formula.Insertion
import Formulary.Proofs.Formula.Layout
import Formulary.Proofs.Formula.Lexeme
import Formulary.Proofs.Formula.Literal
import Formulary.Proofs.Formula.Misses
import Formulary.Proofs.Formula.Multiplied
import Formulary.Proofs.Formula.Naming
import Formulary.Proofs.Formula.Order
import Formulary.Proofs.Formula.Parsing
import Formulary.Proofs.Formula.Pieces
import Formulary.Proofs.Formula.Reading
import Formulary.Proofs.Formula.Renaming
import Formulary.Proofs.Formula.Respacing
import Formulary.Proofs.Formula.Segment
import Formulary.Proofs.Formula.Spacing
import Formulary.Proofs.Formula.Spelling
import Formulary.Proofs.Formula.Substitution
import Formulary.Proofs.Formula.Term
import Formulary.Proofs.Formula.Value
import Formulary.Proofs.Lookup
import Formulary.Proofs.Number.Equality
import Formulary.Proofs.Number.Finite
import Formulary.Proofs.Numeric.Agreement
import Formulary.Proofs.Numeric.Equation
import Formulary.Proofs.Numeric.Order
import Formulary.Proofs.Numeric.Outcome
import Formulary.Proofs.Numeric.Residual
import Formulary.Proofs.Numeric.Watched
import Formulary.Proofs.Text.Word
import Formulary.Service
import Formulary.Table
import Formulary.Text.Blank
import Formulary.Text.CodePoints
import Formulary.Text.Containment
import Formulary.Text.Digit
import Formulary.Text.Identifier
import Formulary.Text.Printable
import Formulary.Text.Quoted
import Formulary.Text.Replacement
import Formulary.Text.Spacing
import Formulary.Text.Uppercase
import Formulary.Text.Word
import Formulary.Trace
import Formulary.Proofs.ClosedForm.RootError
import Formulary.Proofs.Catalog.Records
import Formulary.Proofs.Catalog.Validation
import Formulary.Proofs.Catalog.Equations
import Formulary.Proofs.Numeric.Convergence
import Formulary.Proofs.Expression.Estimate
import Formulary.Proofs.ClosedForm.ResidualCheck
import Formulary.Proofs.Calculator.Inputs
import Formulary.Proofs.Expression.Selection
import Formulary.Proofs.Formula.Selection
import Formulary.Proofs.Catalog.Listing
import Formulary.Proofs.Service.Acceptance
import Formulary.Proofs.Service.Handling
import Formulary.Proofs.Numeric.Arithmetic
import Formulary.Proofs.Numeric.Bisection
import Formulary.Proofs.ClosedForm.Expansion
import Formulary.Proofs.ClosedForm.Collection
import Formulary.Proofs.ClosedForm.RootChoice
import Formulary.Proofs.ClosedForm.LowDegree
import Formulary.Proofs.Number.Extended
import Formulary.Proofs.Numeric.Descent
import Formulary.Proofs.Numeric.Linear
import Formulary.Proofs.Numeric.BestEffort
import Formulary.Proofs.Expression.Undefined
import Formulary.Proofs.Expression.Arithmetic
import Formulary.Proofs.Formula.Simultaneous
import Formulary.Proofs.Formula.Restoring
import Formulary.Proofs.Numeric.Sides
import Formulary.Proofs.Formula.Outline
import Formulary.Proofs.Calculator.Completeness
import Formulary.Proofs.Number.Decimal
import Formulary.Proofs.Display.Numeral
import Formulary.Proofs.Display.Accuracy
import Formulary.Proofs.Formula.Occurrence
import Formulary.Proofs.Number.Conversion
import Formulary.Proofs.Display.Order
import Formulary.Proofs.Display.Stability
