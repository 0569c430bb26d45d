import Quill.Outline.Syntax
import Quill.Typed.Basic

/-!
# Outlines of checked programs

Variables and functions show their names and types, not their identities.
-/

namespace Quill

open Outline

/-- The outline of a basic type: its name. -/
def Basic.outline : Basic → Outline
  | .int => .leaf "Int"
  | .float => .leaf "Float"
  | .string => .leaf "Str"
  | .bool => .leaf "Bool"
  | .void => .leaf "Void"
  | .any => .leaf "Any"

/-- The outline of the number of a struct. -/
def StructId.outline (id : StructId) : Outline := wrapped "StructId" (nat id.index)

/-- The outline of what a function takes and gives. -/
def signatureOutline (params : List Outline) (result : Outline) : Outline :=
  record "FunctionType" [.labelled "parameters" (list params), .labelled "return_type" result]

mutual

/-- The outline of a type. -/
def Ty.outline : Ty → Outline
  | .basic b => wrapped "Basic" b.outline
  | .struct id => wrapped "Struct" id.outline
  | .array element => wrapped "Array" element.outline
  | .function params result =>
    wrapped "Function" (signatureOutline (Ty.outlines params) result.outline)
  | .sum alternatives => wrapped "Sum" (list (Ty.outlines alternatives))

/-- The outlines of types. -/
def Ty.outlines : List Ty → List Outline
  | [] => []
  | t :: ts => t.outline :: Ty.outlines ts

end

/-- The outline of a field. -/
def Field.outline (f : Field) : Outline :=
  record "Field" [.labelled "name" (string f.name), .labelled "ty" f.type.outline]

/-- The outline of a struct. -/
def StructDef.outline (d : StructDef) : Outline :=
  record "StructDef"
    [.labelled "name" (string d.name), .labelled "fields" (list (d.fields.map Field.outline))]

/-- The outline of the table of structs. -/
def TypeTable.outline (t : TypeTable) : Outline :=
  record "TypeTable" [.labelled "structs" (list (t.structs.map StructDef.outline))]

/-- The outline of a variable. -/
def Variable.outline (v : Variable) : Outline :=
  record "Variable"
    [.labelled "name" (string v.name), .labelled "read_only" (bool v.readOnly),
     .labelled "ty" v.type.outline]

/-- The outline of a function. -/
def Function.outline (f : Function) : Outline :=
  record "Function"
    [.labelled "name" (string f.name),
     .labelled "ty" (signatureOutline (Ty.outlines f.params) f.result.outline)]

namespace Typed

/-- The outline of a literal. -/
def Literal.outline : Literal → Outline
  | .int n => wrapped "Int" (Outline.int n)
  | .float x => wrapped "Float" (Outline.float x)
  | .string s => wrapped "Str" (Outline.string s)
  | .bool b => wrapped "Bool" (Outline.bool b)

mutual

/-- The outline of an expression. -/
def Expr.outline : Expr → Outline
  | .literal l => wrapped "Literal" l.outline
  | .conditional test yes no t =>
    record "Conditional"
      [.labelled "test" test.outline, .labelled "consequent" yes.outline,
       .labelled "alternate" no.outline, .labelled "ty" t.outline]
  | .binary op left right t =>
    record "Binary"
      [.labelled "op" op.outline, .labelled "left" left.outline, .labelled "right" right.outline,
       .labelled "ty" t.outline]
  | .unary op operand t =>
    record "Unary"
      [.labelled "op" op.outline, .labelled "operand" operand.outline, .labelled "ty" t.outline]
  | .array elements t =>
    record "Array" [.labelled "elements" (list (Expr.outlines elements)), .labelled "ty" t.outline]
  | .emptyArray t => record "EmptyArray" [.labelled "ty" t.outline]
  | .absent t => record "EmptyOptional" [.labelled "ty" t.outline]
  | .subscript items index t =>
    record "Subscript"
      [.labelled "array" items.outline, .labelled "index" index.outline, .labelled "ty" t.outline]
  | .member object field chained t =>
    record "Member"
      [.labelled "object" object.outline, .labelled "field" (Outline.string field),
       .labelled "optional_chain" (Outline.bool chained), .labelled "ty" t.outline]
  | .call callee args t =>
    record "Call"
      [.labelled "callee" callee.outline, .labelled "arguments" (list (Expr.outlines args)),
       .labelled "ty" t.outline]
  | .construct id args =>
    record "Construct"
      [.labelled "id" id.outline, .labelled "arguments" (list (Expr.outlines args))]
  | .variable v => wrapped "Variable" v.outline
  | .function f => wrapped "Function" f.outline

/-- The outlines of expressions. -/
def Expr.outlines : List Expr → List Outline
  | [] => []
  | e :: es => e.outline :: Expr.outlines es

end

mutual

/-- The outline of a statement. -/
def Stmt.outline : Stmt → Outline
  | .declare v byReference value =>
    record (if byReference then "ReferenceDecl" else "ValueDecl")
      [.labelled "variable" v.outline, .labelled "initializer" value.outline]
  | .struct id => wrapped "TypeDecl" id.outline
  | .function f params body =>
    record "FunctionDecl"
      [.labelled "function" f.outline,
       .labelled "parameters" (list (params.map Variable.outline)),
       .labelled "body" (list (Stmt.outlines body))]
  | .assign target source byReference =>
    record (if byReference then "AssignReference" else "AssignValue")
      [.labelled "target" target.outline, .labelled "source" source.outline]
  | .increment target => wrapped "Increment" target.outline
  | .decrement target => wrapped "Decrement" target.outline
  | .breakLoop => .leaf "Break"
  | .giveBack none => .leaf "ShortReturn"
  | .giveBack (some value) => wrapped "Return" value.outline
  | .branch test yes no =>
    record "If"
      [.labelled "test" test.outline, .labelled "consequent" (list (Stmt.outlines yes)),
       .labelled "alternate" (list (Stmt.outlines no))]
  | .shortBranch test yes =>
    record "ShortIf"
      [.labelled "test" test.outline, .labelled "consequent" (list (Stmt.outlines yes))]
  | .whileLoop test body =>
    record "While" [.labelled "test" test.outline, .labelled "body" (list (Stmt.outlines body))]
  | .repeatLoop count body =>
    record "Repeat"
      [.labelled "count" count.outline, .labelled "body" (list (Stmt.outlines body))]
  | .rangeLoop iterator low op high body =>
    record "ForRange"
      [.labelled "iterator" iterator.outline, .labelled "low" low.outline,
       .labelled "op" op.outline, .labelled "high" high.outline,
       .labelled "body" (list (Stmt.outlines body))]
  | .eachLoop iterator collection body =>
    record "ForEach"
      [.labelled "iterator" iterator.outline, .labelled "collection" collection.outline,
       .labelled "body" (list (Stmt.outlines body))]
  | .perform call => wrapped "Call" call.outline

/-- The outlines of statements. -/
def Stmt.outlines : List Stmt → List Outline
  | [] => []
  | s :: rest => s.outline :: Stmt.outlines rest

end

/-- The outline of a program. -/
def Program.outline (p : Program) : Outline :=
  record "Program"
    [.labelled "statements" (list (Stmt.outlines p.statements)),
     .labelled "types" p.types.outline]

end Typed

end Quill
