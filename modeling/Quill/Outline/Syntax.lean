import Quill.Outline.Basic
import Quill.Syntax.Basic

/-!
# Outlines of syntax trees

Every node shows its parts and then the span of text it comes from.
-/

namespace Quill

open Outline

/-- The outline of a position. -/
def Position.outline (p : Position) : Outline :=
  record "Position"
    [.labelled "offset" (nat p.offset.toNat), .labelled "line" (nat p.line.toNat),
     .labelled "column" (nat p.column.toNat), .labelled "file" (string p.file)]

/-- The outline of a span. -/
def Span.outline (s : Span) : Outline :=
  record "Span" [.labelled "start" s.start.outline, .labelled "end" s.stop.outline]

/-- The outline of an operator: its name. -/
def BinaryOp.outline (op : BinaryOp) : Outline := .leaf op.name

/-- The outline of an operator: its name. -/
def UnaryOp.outline (op : UnaryOp) : Outline := .leaf op.name

/-- The outline of an operator: its name. -/
def RangeOp.outline (op : RangeOp) : Outline := .leaf op.name

namespace Syntax

/-- A node of the given kind: the parts, then the span. -/
def spanned (name : String) (parts : List Outline) (span : Span) : Outline :=
  record name (parts ++ [.labelled "span" span.outline])

mutual

/-- The outline of a type annotation. -/
def TypeExpr.outline : TypeExpr → Outline
  | .named name s => spanned "Named" [.labelled "name" (string name)] s
  | .array element s => spanned "Array" [.labelled "element" element.outline] s
  | .optional base s => spanned "Optional" [.labelled "base" base.outline] s
  | .sum alternatives s =>
    spanned "Sum" [.labelled "alternatives" (list (TypeExpr.outlines alternatives))] s
  | .function params result s =>
    spanned "Function"
      [.labelled "parameters" (list (TypeExpr.outlines params)),
       .labelled "return_type" result.outline] s

/-- The outlines of type annotations. -/
def TypeExpr.outlines : List TypeExpr → List Outline
  | [] => []
  | t :: ts => t.outline :: TypeExpr.outlines ts

end

mutual

/-- The outline of an expression. -/
def Expr.outline : Expr → Outline
  | .int n s => wrapped "Integer" (spanned "IntegerExpr" [.labelled "value" (Outline.int n)] s)
  | .float x s => wrapped "Float" (spanned "FloatExpr" [.labelled "value" (Outline.float x)] s)
  | .string t s =>
    wrapped "String" (spanned "StringExpr" [.labelled "value" (Outline.string t)] s)
  | .bool b s =>
    wrapped "Boolean" (spanned "BooleanExpr" [.labelled "value" (Outline.bool b)] s)
  | .symbol name s =>
    wrapped "Symbol" (spanned "SymbolExpr" [.labelled "value" (Outline.string name)] s)
  | .binary op left right s =>
    wrapped "Binary" <| spanned "BinaryExpr"
      [.labelled "left" left.outline, .labelled "operator" op.outline,
       .labelled "right" right.outline] s
  | .unary op operand s =>
    wrapped "Prefix" <| spanned "PrefixExpr"
      [.labelled "operator" op.outline, .labelled "right_expr" operand.outline] s
  | .conditional test yes no s =>
    wrapped "Conditional" <| spanned "ConditionalExpr"
      [.labelled "test" test.outline, .labelled "consequent" yes.outline,
       .labelled "alternate" no.outline] s
  | .array elements s =>
    wrapped "Array" (spanned "ArrayExpr" [.labelled "elements" (list (Expr.outlines elements))] s)
  | .emptyArray element s =>
    wrapped "EmptyArray" <| spanned "EmptyArrayExpr"
      [.labelled "element_type" element.outline] s
  | .absent base s =>
    wrapped "EmptyOptional" <| spanned "EmptyOptionalExpr"
      [.labelled "base_type" base.outline] s
  | .subscript items index s =>
    wrapped "Subscript" <| spanned "SubscriptExpr"
      [.labelled "array" items.outline, .labelled "index" index.outline] s
  | .member object field chained s =>
    wrapped "Member" <| spanned "MemberExpr"
      [.labelled "object" object.outline, .labelled "field" (Outline.string field),
       .labelled "optional" (Outline.bool chained)] s
  | .call callee args s =>
    wrapped "Call" <| spanned "CallExpr"
      [.labelled "callee" callee.outline, .labelled "arguments" (list (Expr.outlines args))] s

/-- The outlines of expressions. -/
def Expr.outlines : List Expr → List Outline
  | [] => []
  | e :: es => e.outline :: Expr.outlines es

end

/-- The outline of a field or a parameter, under the given name for its kind. -/
def Binding.outline (kind : String) (b : Binding) : Outline :=
  spanned kind
    [.labelled "name" (string b.name), .labelled "explicit_type" b.type.outline] b.span

mutual

/-- The outline of a statement. -/
def Stmt.outline : Stmt → Outline
  | .declare name isConstant byReference value s =>
    wrapped "VarDecl" <| spanned "VarDeclStmt"
      [.labelled "identifier" (string name), .labelled "is_constant" (bool isConstant),
       .labelled "by_reference" (bool byReference), .labelled "assigned_value" value.outline] s
  | .struct name fields s =>
    wrapped "StructDecl" <| spanned "StructDeclStmt"
      [.labelled "identifier" (string name),
       .labelled "fields" (list (fields.map (Binding.outline "FieldDecl")))] s
  | .function name params result body s =>
    wrapped "FnDecl" <| spanned "FnDeclStmt"
      [.labelled "identifier" (string name),
       .labelled "parameters" (list (params.map (Binding.outline "Parameter"))),
       .labelled "return_type" (option (result.map TypeExpr.outline)),
       .labelled "body" body.outline] s
  | .assign target value byReference s =>
    wrapped "Assignment" <| spanned "AssignmentStmt"
      [.labelled "assignee" target.outline, .labelled "value" value.outline,
       .labelled "by_reference" (bool byReference)] s
  | .increment target s =>
    wrapped "Increment" (spanned "UpdateStmt" [.labelled "target" target.outline] s)
  | .decrement target s =>
    wrapped "Decrement" (spanned "UpdateStmt" [.labelled "target" target.outline] s)
  | .breakLoop s => wrapped "Break" (spanned "BreakStmt" [] s)
  | .giveBack value s =>
    wrapped "Return" <| spanned "ReturnStmt"
      [.labelled "value" (option (value.map Expr.outline))] s
  | .branch test body alternative s =>
    wrapped "If" <| spanned "IfStmt"
      [.labelled "condition" test.outline, .labelled "then_body" body.outline,
       .labelled "else_body" alternative.outline] s
  | .whileLoop test body s =>
    wrapped "While" <| spanned "WhileStmt"
      [.labelled "condition" test.outline, .labelled "body" body.outline] s
  | .repeatLoop count body s =>
    wrapped "Repeat" <| spanned "RepeatStmt"
      [.labelled "count" count.outline, .labelled "body" body.outline] s
  | .rangeLoop iterator low op high body s =>
    wrapped "ForRange" <| spanned "ForRangeStmt"
      [.labelled "iterator" (string iterator), .labelled "low" low.outline,
       .labelled "operator" op.outline, .labelled "high" high.outline,
       .labelled "body" body.outline] s
  | .eachLoop iterator collection body s =>
    wrapped "ForEach" <| spanned "ForEachStmt"
      [.labelled "iterator" (string iterator), .labelled "collection" collection.outline,
       .labelled "body" body.outline] s
  | .perform expression s =>
    wrapped "Expression" <| spanned "ExpressionStmt"
      [.labelled "expression" expression.outline] s

/-- The outlines of statements. -/
def Stmt.outlines : List Stmt → List Outline
  | [] => []
  | s :: rest => s.outline :: Stmt.outlines rest

/-- The outline of a block. -/
def Block.outline : Block → Outline
  | .mk body s => spanned "BlockStmt" [.labelled "body" (list (Stmt.outlines body))] s

/-- The outline of what follows the first arm of a branch. -/
def Alternative.outline : Alternative → Outline
  | .nothing => option none
  | .otherwise body => option (some (wrapped "Block" body.outline))
  | .elseIf test body alternative s =>
    option <| some <| wrapped "If" <| spanned "IfStmt"
      [.labelled "condition" test.outline, .labelled "then_body" body.outline,
       .labelled "else_body" alternative.outline] s

end

end Syntax

end Quill
