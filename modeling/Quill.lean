import Quill.Check.Env
import Quill.Check.Expr
import Quill.Check.Stmt
import Quill.Check.Type
import Quill.Command
import Quill.Compile
import Quill.Diagnostic.Basic
import Quill.Diagnostic.Excerpt
import Quill.Entity
import Quill.Library
import Quill.Main
import Quill.Number.Binary64
import Quill.Number.Reading
import Quill.Number.Shortest
import Quill.Number.Word
import Quill.Number.Written
import Quill.Operator
import Quill.Outline.Basic
import Quill.Outline.Syntax
import Quill.Outline.Typed
import Quill.Parse.Cursor
import Quill.Parse.Expr
import Quill.Parse.Grammar
import Quill.Parse.List
import Quill.Parse.Program
import Quill.Parse.Stmt
import Quill.Parse.Type
import Quill.Position
import Quill.Proofs.Derivation
import Quill.Proofs.Evaluation
import Quill.Proofs.Execution
import Quill.Proofs.Fitting
import Quill.Proofs.Identity
import Quill.Proofs.Laws
import Quill.Proofs.Meaning
import Quill.Proofs.Narrowing
import Quill.Proofs.Nodes
import Quill.Proofs.Place
import Quill.Proofs.Reduced
import Quill.Proofs.Remains
import Quill.Proofs.Rules
import Quill.Proofs.Sameness
import Quill.Proofs.Site
import Quill.Proofs.Word
import Quill.Scope
import Quill.Simplify.Expr
import Quill.Simplify.Literal
import Quill.Simplify.Program
import Quill.Syntax.Basic
import Quill.Text.Blank
import Quill.Text.Extending
import Quill.Text.Quoted
import Quill.Text.Range
import Quill.Text.Unprintable
import Quill.Token.Basic
import Quill.Token.Kind
import Quill.Token.Reader
import Quill.Token.Rule
import Quill.Token.Scan
import Quill.Ty.Basic
import Quill.Ty.Table
import Quill.Typed.Basic
import Quill.Proofs.Bindings
import Quill.Proofs.Agreement
import Quill.Proofs.Discipline
import Quill.Proofs.Scoping
import Quill.Proofs.Typing
import Quill.Proofs.Naming
import Quill.Proofs.Slots
import Quill.Proofs.Terminal
import Quill.Proofs.Lexeme
import Quill.Proofs.Phrase
import Quill.Proofs.Reading
import Quill.Proofs.Accepted
import Quill.Proofs.Printing
import Quill.Proofs.RoundTrip
import Quill.Proofs.Alike
import Quill.Proofs.Lockstep
import Quill.Proofs.Tiling
import Quill.Proofs.Verdict
import Quill.Proofs.Location
import Quill.Proofs.Layout
import Quill.Proofs.Covering
import Quill.Proofs.Nesting
import Quill.Proofs.Composition
import Quill.Proofs.Containment
import Quill.Proofs.Formed
import Quill.Proofs.Moments
import Quill.Proofs.Renaming
import Quill.Proofs.Spelling
import Quill.Proofs.Faults
import Quill.Proofs.Passing
import Quill.Proofs.Renumbering
import Quill.Proofs.Serving
import Quill.Proofs.LiveBranch
import Quill.Proofs.Closers
import Quill.Proofs.Elements
import Quill.Proofs.Equality
import Quill.Proofs.Exactness
import Quill.Proofs.Caret
import Quill.Proofs.Descent
import Quill.Proofs.Ending
import Quill.Proofs.Longest
import Quill.Proofs.Gluing
import Quill.Proofs.TypeText
import Quill.Proofs.Impasse
import Quill.Proofs.Spacing
import Quill.Proofs.Restoring
import Quill.Proofs.Shrinking
import Quill.Proofs.Stack
import Quill.Proofs.Stopping
import Quill.Proofs.Alternatives
