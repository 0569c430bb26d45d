import Quill.Position
import Quill.Text.Quoted

/-!
# Diagnostics

Everything that can be wrong with a program, as one type of causes. Reading a text, building its
tree and checking it all stop at the first diagnostic: a cause together with its place. The wording
of a cause is settled by `Cause.message` and `Cause.tip` alone.
-/

namespace Quill

/-- What is wrong. The first four are faults of form, the others faults of meaning. -/
inductive Cause where
  /-- No token starts with this character. -/
  | unrecognised (token : String)
  /-- A token that cannot stand here. -/
  | unexpected (token : String)
  /-- A token that cannot stand here, with what was wanted instead. -/
  | unexpectedHere (token message : String)
  /-- A number that has no value. -/
  | badNumber (token : String)
  /-- A name that nothing in scope binds. -/
  | undeclared (name : String)
  /-- A name bound twice in one scope. -/
  | redeclared (name : String)
  /-- A value that does not fit where it is put. -/
  | notAssignable (expected received : String)
  /-- An operand outside the class of types that its place asks for. -/
  | wrongClass (expected received : String)
  /-- Two operands that should have one type. -/
  | operandsDiffer (left right : String)
  /-- A call with the wrong number of arguments. -/
  | wrongArity (expected received : Nat)
  /-- A `break` with no loop around it. -/
  | strayBreak
  /-- A `return` that does not suit the function around it. -/
  | badReturn (reason : String)
  /-- A struct that holds itself. -/
  | recursiveStruct (name : String)
  /-- A struct with two fields of one name. -/
  | repeatedField (name field : String)
  /-- A field that the struct does not have. -/
  | unknownField (field type : String)
  /-- A call of something that is no function. -/
  | notCallable (type : String)
  /-- A value where a type is wanted. -/
  | notAType (name : String)
  /-- A type where a value is wanted. -/
  | typeAsValue (name : String) (isStruct : Bool)
  /-- An assignment to what cannot change. -/
  | readOnly (name : String) (isFunction : Bool)
  /-- An assignment to what is no place. -/
  | badTarget
deriving DecidableEq, Repr, Inhabited

namespace Cause

/-- The short name of a cause. -/
def name : Cause → String
  | .unrecognised _ => "UnrecognisedToken"
  | .unexpected _ => "UnexpectedToken"
  | .unexpectedHere _ _ => "UnexpectedTokenDetailed"
  | .badNumber _ => "NumberParseError"
  | .undeclared _ => "UndeclaredIdentifier"
  | .redeclared _ => "DuplicateDeclaration"
  | .notAssignable _ _ => "TypeMismatch"
  | .wrongClass _ _ => "ExpectedTypeClass"
  | .operandsDiffer _ _ => "OperandMismatch"
  | .wrongArity _ _ => "ArityMismatch"
  | .strayBreak => "InvalidLoopExit"
  | .badReturn _ => "InvalidReturn"
  | .recursiveStruct _ => "RecursiveStructType"
  | .repeatedField _ _ => "DuplicateField"
  | .unknownField _ _ => "UnknownMember"
  | .notCallable _ => "NotCallable"
  | .notAType _ => "NotAType"
  | .typeAsValue _ _ => "ExpectedValue"
  | .readOnly _ _ => "ReadOnlyAssignment"
  | .badTarget => "InvalidAssignmentTarget"

/-- Whether the cause is a fault of form, found before any name or type is looked at. -/
def isSyntactic : Cause → Bool
  | .unrecognised _ | .unexpected _ | .unexpectedHere _ _ | .badNumber _ => true
  | _ => false

/-- What a cause says. -/
def message : Cause → String
  | .unrecognised token => "unrecognised token: " ++ Text.quote token
  | .unexpected token => "unexpected token: " ++ Text.quote token
  | .unexpectedHere token message => "unexpected token (" ++ message ++ "): " ++ Text.quote token
  | .badNumber token => "error parsing number: " ++ Text.quote token
  | .undeclared name => "identifier `" ++ name ++ "` is not declared"
  | .redeclared name => "identifier `" ++ name ++ "` is already declared"
  | .notAssignable expected received => "cannot assign a " ++ received ++ " to a " ++ expected
  | .wrongClass expected received => "expected " ++ expected ++ ", found " ++ received
  | .operandsDiffer left right =>
    "operands do not have the same type: " ++ left ++ " and " ++ right
  | .wrongArity expected received =>
    toString expected ++ " argument(s) required but " ++ toString received ++ " passed"
  | .strayBreak => "break can only appear in a loop"
  | .badReturn reason => reason
  | .recursiveStruct name => "struct type `" ++ name ++ "` must not be recursive"
  | .repeatedField name field =>
    "field `" ++ field ++ "` declared more than once in `" ++ name ++ "`"
  | .unknownField field type => "no such field `" ++ field ++ "` on " ++ type
  | .notCallable type => "cannot call a value of type " ++ type
  | .notAType name => "type expected, `" ++ name ++ "` is not a type"
  | .typeAsValue name _ => "type `" ++ name ++ "` cannot be used as a value"
  | .readOnly name _ => "cannot assign to read-only `" ++ name ++ "`"
  | .badTarget => "only variables, subscripts and fields can be assigned to"

/-- A hint on how to mend the fault, where there is one. -/
def tip : Cause → Option String
  | .unexpected _ => some "did you miss a semicolon?"
  | .badNumber _ => some "is it above the integer limit?"
  | .redeclared _ => some "names may only be reused inside a nested block"
  | .strayBreak => some "a function body does not inherit the loop it is declared in"
  | .recursiveStruct name => some ("use an optional field such as `" ++ name ++ "?`")
  | .readOnly name false => some ("declare `" ++ name ++ "` with `let` to make it writable")
  | .readOnly name true =>
    some ("`" ++ name ++ "` is a function; hold it in a `let` variable to reassign it")
  | .typeAsValue name true => some ("construct a value with `" ++ name ++ "(...)`")
  | .typeAsValue name false => some ("use a literal or variable of type `" ++ name ++ "`")
  | _ => none

end Cause

/-- A fault of a program: what is wrong and where. -/
structure Diagnostic where
  cause : Cause
  position : Position
deriving DecidableEq, Repr, Inhabited

namespace Diagnostic

/-- The fault is one of form. -/
abbrev OfForm (d : Diagnostic) : Prop := d.cause.isSyntactic = true

/-- The fault is one of meaning. -/
abbrev OfMeaning (d : Diagnostic) : Prop := d.cause.isSyntactic = false

/-- One line that names the place, where there is one, and says what is wrong. -/
def summary (d : Diagnostic) : String :=
  if d.position.line = 0 then d.cause.message
  else d.position.file ++ ":" ++ toString d.position.line ++ ":" ++ toString d.position.column
    ++ ": " ++ d.cause.message

end Diagnostic

end Quill
