import Mathlib.Data.List.Basic
import Quill.Check.Stmt

/-!
# Renaming

A map `r` of names is applied to everything that names something: the declarations, references,
annotations, parameters and iterators of a tree, the entries of a library, and the variables,
functions and structs of a typed program. Fields and members keep their names, and types have no
names, since they know structs by number.

Where `r` is injective, a name is found in renamed scopes exactly where it was, and stands for the
renamed entity. Nothing else is ever asked of a name.

Results:
* `Typed.Expr.type_rename`: types do not change.
* `Scopes.find?_rename`: look-up in renamed scopes.
* `TypeTable.define_rename`: the table of structs under other names.
* `Typed.Program.rename_id` and its like: under the identity, nothing changes.
-/

namespace Quill

variable (r : String → String)

/-! ## Trees -/

namespace Syntax

mutual

/-- The annotation with its names changed. -/
def TypeExpr.rename : TypeExpr → TypeExpr
  | .named name s => .named (r name) s
  | .array element s => .array element.rename s
  | .optional base s => .optional base.rename s
  | .sum alternatives s => .sum (TypeExpr.renameAll alternatives) s
  | .function params result s => .function (TypeExpr.renameAll params) result.rename s

/-- Several annotations with their names changed. -/
def TypeExpr.renameAll : List TypeExpr → List TypeExpr
  | [] => []
  | t :: ts => t.rename :: TypeExpr.renameAll ts

end

mutual

/-- The expression with its names changed. The name of a member stays. -/
def Expr.rename : Expr → Expr
  | .int n s => .int n s
  | .float x s => .float x s
  | .string text s => .string text s
  | .bool b s => .bool b s
  | .symbol name s => .symbol (r name) s
  | .binary op left right s => .binary op left.rename right.rename s
  | .unary op operand s => .unary op operand.rename s
  | .conditional test yes no s => .conditional test.rename yes.rename no.rename s
  | .array elements s => .array (Expr.renameAll elements) s
  | .emptyArray element s => .emptyArray (element.rename r) s
  | .absent base s => .absent (base.rename r) s
  | .subscript items index s => .subscript items.rename index.rename s
  | .member object field chained s => .member object.rename field chained s
  | .call callee args s => .call callee.rename (Expr.renameAll args) s

/-- Several expressions with their names changed. -/
def Expr.renameAll : List Expr → List Expr
  | [] => []
  | e :: es => e.rename :: Expr.renameAll es

end

/-- A field keeps its name. -/
def Binding.renameField (b : Binding) : Binding := ⟨b.name, b.type.rename r, b.span⟩

/-- A parameter with its name changed. -/
def Binding.renameParam (b : Binding) : Binding := ⟨r b.name, b.type.rename r, b.span⟩

mutual

/-- The statement with its names changed. -/
def Stmt.rename : Stmt → Stmt
  | .declare name isConstant byReference value s =>
    .declare (r name) isConstant byReference (value.rename r) s
  | .struct name fields s => .struct (r name) (fields.map (Binding.renameField r)) s
  | .function name params result body s =>
    .function (r name) (params.map (Binding.renameParam r)) (result.map (TypeExpr.rename r))
      body.rename s
  | .assign target value byReference s =>
    .assign (target.rename r) (value.rename r) byReference s
  | .increment target s => .increment (target.rename r) s
  | .decrement target s => .decrement (target.rename r) s
  | .breakLoop s => .breakLoop s
  | .giveBack value s => .giveBack (value.map (Expr.rename r)) s
  | .branch test body rest s => .branch (test.rename r) body.rename rest.rename s
  | .whileLoop test body s => .whileLoop (test.rename r) body.rename s
  | .repeatLoop count body s => .repeatLoop (count.rename r) body.rename s
  | .rangeLoop iterator low op high body s =>
    .rangeLoop (r iterator) (low.rename r) op (high.rename r) body.rename s
  | .eachLoop iterator collection body s =>
    .eachLoop (r iterator) (collection.rename r) body.rename s
  | .perform call s => .perform (call.rename r) s

/-- The block with its names changed. -/
def Block.rename : Block → Block
  | .mk body s => .mk (Stmt.renameAll body) s

/-- What follows the first arm of a branch, with its names changed. -/
def Alternative.rename : Alternative → Alternative
  | .nothing => .nothing
  | .otherwise body => .otherwise body.rename
  | .elseIf test body rest s => .elseIf (test.rename r) body.rename rest.rename s

/-- Several statements with their names changed. -/
def Stmt.renameAll : List Stmt → List Stmt
  | [] => []
  | s :: ss => s.rename :: Stmt.renameAll ss

end

@[simp] theorem Expr.span_rename (e : Expr) : (e.rename r).span = e.span := by
  cases e <;> rfl

theorem TypeExpr.renameAll_eq (ts : List TypeExpr) :
    TypeExpr.renameAll r ts = ts.map (TypeExpr.rename r) := by
  induction ts with
  | nil => rfl
  | cons t ts ih => rw [renameAll, ih, List.map_cons]

theorem Expr.length_renameAll (es : List Expr) : (Expr.renameAll r es).length = es.length := by
  induction es with
  | nil => rfl
  | cons e es ih => rw [renameAll, List.length_cons, ih, List.length_cons]

theorem Block.body_rename (b : Block) : (b.rename r).body = Stmt.renameAll r b.body := by
  cases b
  rfl

end Syntax

/-! ## What names stand for -/

/-- The variable under another name. -/
def Variable.rename (v : Variable) : Variable := { v with name := r v.name }

/-- The function under another name. -/
def Function.rename (f : Function) : Function := { f with name := r f.name }

/-- What a name stands for, under another name. -/
def Entity.rename : Entity → Entity
  | .variable v => .variable (v.rename r)
  | .function f => .function (f.rename r)
  | .type t => .type t

theorem Entity.id?_rename (x : Entity) : (x.rename r).id? = x.id? := by
  cases x <;> rfl

/-- A name and what it stands for, both renamed. -/
def Entity.renameEntry (e : String × Entity) : String × Entity := (r e.1, e.2.rename r)

/-- The library with its names and entities renamed. -/
def Library.rename (lib : Library) : Library where
  entries := lib.entries.map (Entity.renameEntry r)
  nextId := lib.nextId
  id_lt e he i hi := by
    obtain ⟨e, hentry, rfl⟩ := List.mem_map.mp he
    rw [Entity.renameEntry, Entity.id?_rename] at hi
    exact lib.id_lt e hentry i hi

/-- The struct under another name, with its fields as they are. -/
def StructDef.rename (d : StructDef) : StructDef := ⟨r d.name, d.fields⟩

/-- The table with other names of structs. -/
def TypeTable.rename (table : TypeTable) : TypeTable := ⟨table.structs.map (StructDef.rename r)⟩

/-- What a scope is the body of, under another name. -/
def ScopeKind.rename : ScopeKind → ScopeKind
  | .block => .block
  | .loop => .loop
  | .function f => .function (f.rename r)

/-- The scope with its names changed. -/
def Scope.rename (s : Scope) : Scope :=
  ⟨s.names.map (Entity.renameEntry r), s.inLoop, s.function.map (Function.rename r)⟩

/-- The open scopes with their names changed. -/
def Scopes.rename (s : Scopes) : Scopes := ⟨s.inner.rename r, s.outer.map (Scope.rename r)⟩

/-- What names are looked up in, with the names changed. -/
def Check.Env.rename (env : Check.Env) : Check.Env :=
  ⟨env.scopes.rename r, env.types.rename r⟩

/-- What statements change, with the names changed. -/
def Check.State.rename (s : Check.State) : Check.State := ⟨s.env.rename r, s.nextId⟩

/-! ## Typed programs -/

namespace Typed

mutual

/-- The typed expression with the names of its variables and functions changed. -/
def Expr.rename : Expr → Expr
  | .literal l => .literal l
  | .conditional test yes no t => .conditional test.rename yes.rename no.rename t
  | .binary op left right t => .binary op left.rename right.rename t
  | .unary op operand t => .unary op operand.rename t
  | .array elements t => .array (Expr.renameAll elements) t
  | .emptyArray t => .emptyArray t
  | .absent t => .absent t
  | .subscript items index t => .subscript items.rename index.rename t
  | .member object field chained t => .member object.rename field chained t
  | .call callee args t => .call callee.rename (Expr.renameAll args) t
  | .construct id args => .construct id (Expr.renameAll args)
  | .variable v => .variable (v.rename r)
  | .function f => .function (f.rename r)

/-- Several typed expressions with the names changed. -/
def Expr.renameAll : List Expr → List Expr
  | [] => []
  | e :: es => e.rename :: Expr.renameAll es

end

mutual

/-- The typed statement with the names of its variables and functions changed. -/
def Stmt.rename : Stmt → Stmt
  | .declare v byReference value => .declare (v.rename r) byReference (value.rename r)
  | .struct id => .struct id
  | .function f params body =>
    .function (f.rename r) (params.map (Variable.rename r)) (Stmt.renameAll body)
  | .assign target source byReference => .assign (target.rename r) (source.rename r) byReference
  | .increment target => .increment (target.rename r)
  | .decrement target => .decrement (target.rename r)
  | .breakLoop => .breakLoop
  | .giveBack value => .giveBack (value.map (Expr.rename r))
  | .branch test yes no => .branch (test.rename r) (Stmt.renameAll yes) (Stmt.renameAll no)
  | .shortBranch test yes => .shortBranch (test.rename r) (Stmt.renameAll yes)
  | .whileLoop test body => .whileLoop (test.rename r) (Stmt.renameAll body)
  | .repeatLoop count body => .repeatLoop (count.rename r) (Stmt.renameAll body)
  | .rangeLoop iterator low op high body =>
    .rangeLoop (iterator.rename r) (low.rename r) op (high.rename r) (Stmt.renameAll body)
  | .eachLoop iterator collection body =>
    .eachLoop (iterator.rename r) (collection.rename r) (Stmt.renameAll body)
  | .perform call => .perform (call.rename r)

/-- Several typed statements with the names changed. -/
def Stmt.renameAll : List Stmt → List Stmt
  | [] => []
  | s :: ss => s.rename :: Stmt.renameAll ss

end

/-- The typed program with the names of its variables, functions and structs changed. -/
def Program.rename (p : Program) : Program := ⟨Stmt.renameAll r p.statements, p.types.rename r⟩

@[simp] theorem Expr.type_rename (e : Expr) : (e.rename r).type = e.type := by
  cases e <;> rfl

theorem Expr.map_type_renameAll (es : List Expr) :
    (Expr.renameAll r es).map (·.type) = es.map (·.type) := by
  induction es with
  | nil => rfl
  | cons e es ih => rw [renameAll, List.map_cons, List.map_cons, ih, type_rename]

end Typed

/-! ## Renaming nothing

Under the identity each name stays, and so does everything that holds names. -/

namespace Syntax

mutual

theorem TypeExpr.rename_id (t : TypeExpr) : t.rename id = t := by
  cases t with
  | named name s => rfl
  | array element s => rw [rename, rename_id element]
  | optional base s => rw [rename, rename_id base]
  | sum alternatives s => rw [rename, renameAll_id alternatives]
  | function params result s => rw [rename, renameAll_id params, rename_id result]
termination_by structural t

theorem TypeExpr.renameAll_id (ts : List TypeExpr) : TypeExpr.renameAll id ts = ts := by
  cases ts with
  | nil => rfl
  | cons t ts => rw [renameAll, rename_id t, renameAll_id ts]
termination_by structural ts

end

mutual

theorem Expr.rename_id (e : Expr) : e.rename id = e := by
  cases e with
  | int | float | string | bool | symbol => rfl
  | binary op left right s => rw [rename, rename_id left, rename_id right]
  | unary op operand s => rw [rename, rename_id operand]
  | conditional test yes no s => rw [rename, rename_id test, rename_id yes, rename_id no]
  | array elements s => rw [rename, renameAll_id elements]
  | emptyArray element s => rw [rename, element.rename_id]
  | absent base s => rw [rename, base.rename_id]
  | subscript items index s => rw [rename, rename_id items, rename_id index]
  | member object field chained s => rw [rename, rename_id object]
  | call callee args s => rw [rename, rename_id callee, renameAll_id args]
termination_by structural e

theorem Expr.renameAll_id (es : List Expr) : Expr.renameAll id es = es := by
  cases es with
  | nil => rfl
  | cons e es => rw [renameAll, rename_id e, renameAll_id es]
termination_by structural es

end

theorem Binding.renameField_id : Binding.renameField id = id := by
  funext b
  rw [renameField, b.type.rename_id]
  rfl

theorem Binding.renameParam_id : Binding.renameParam id = id := by
  funext b
  rw [renameParam, b.type.rename_id]
  rfl

mutual

theorem Stmt.rename_id (s : Stmt) : s.rename id = s := by
  cases s with
  | breakLoop => rfl
  | declare name isConstant byReference value s => rw [Stmt.rename, value.rename_id, id_eq]
  | struct name fields s => rw [Stmt.rename, Binding.renameField_id, List.map_id, id_eq]
  | function name params result body s =>
    rw [Stmt.rename, Binding.renameParam_id, List.map_id, body.rename_id, funext TypeExpr.rename_id,
      Option.map_id', id_eq]
  | assign target value byReference s => rw [Stmt.rename, target.rename_id, value.rename_id]
  | increment target s | decrement target s => rw [Stmt.rename, target.rename_id]
  | giveBack value s => rw [Stmt.rename, funext Expr.rename_id, Option.map_id']
  | branch test body rest s => rw [Stmt.rename, test.rename_id, body.rename_id, rest.rename_id]
  | whileLoop test body s => rw [Stmt.rename, test.rename_id, body.rename_id]
  | repeatLoop count body s => rw [Stmt.rename, count.rename_id, body.rename_id]
  | rangeLoop iterator low op high body s =>
    rw [Stmt.rename, low.rename_id, high.rename_id, body.rename_id, id_eq]
  | eachLoop iterator collection body s =>
    rw [Stmt.rename, collection.rename_id, body.rename_id, id_eq]
  | perform call s => rw [Stmt.rename, call.rename_id]
termination_by structural s

theorem Block.rename_id (b : Block) : b.rename id = b := by
  cases b with
  | mk body s => rw [Block.rename, Stmt.renameAll_id body]
termination_by structural b

theorem Alternative.rename_id (a : Alternative) : a.rename id = a := by
  cases a with
  | nothing => rfl
  | otherwise body => rw [Alternative.rename, body.rename_id]
  | elseIf test body rest s =>
    rw [Alternative.rename, test.rename_id, body.rename_id, rest.rename_id]
termination_by structural a

theorem Stmt.renameAll_id (ss : List Stmt) : Stmt.renameAll id ss = ss := by
  cases ss with
  | nil => rfl
  | cons s ss => rw [Stmt.renameAll, s.rename_id, Stmt.renameAll_id ss]
termination_by structural ss

end

end Syntax

namespace Typed

mutual

theorem Expr.rename_id (e : Expr) : e.rename id = e := by
  cases e with
  | literal | emptyArray | absent | «variable» | function => rfl
  | conditional test yes no t => rw [rename, rename_id test, rename_id yes, rename_id no]
  | binary op left right t => rw [rename, rename_id left, rename_id right]
  | unary op operand t => rw [rename, rename_id operand]
  | array elements t => rw [rename, renameAll_id elements]
  | subscript items index t => rw [rename, rename_id items, rename_id index]
  | member object field chained t => rw [rename, rename_id object]
  | call callee args t => rw [rename, rename_id callee, renameAll_id args]
  | construct id args => rw [rename, renameAll_id args]
termination_by structural e

theorem Expr.renameAll_id (es : List Expr) : Expr.renameAll id es = es := by
  cases es with
  | nil => rfl
  | cons e es => rw [renameAll, rename_id e, renameAll_id es]
termination_by structural es

end

mutual

theorem Stmt.rename_id (s : Stmt) : s.rename id = s := by
  cases s with
  | struct | breakLoop => rfl
  | declare v byReference value =>
    rw [rename, value.rename_id]
    rfl
  | function f params body =>
    rw [rename, renameAll_id body, show Variable.rename id = id from rfl, List.map_id]
    rfl
  | assign target source byReference => rw [rename, target.rename_id, source.rename_id]
  | increment target | decrement target => rw [rename, target.rename_id]
  | giveBack value => rw [rename, funext Expr.rename_id, Option.map_id']
  | branch test yes no => rw [rename, test.rename_id, renameAll_id yes, renameAll_id no]
  | shortBranch test yes => rw [rename, test.rename_id, renameAll_id yes]
  | whileLoop test body => rw [rename, test.rename_id, renameAll_id body]
  | repeatLoop count body => rw [rename, count.rename_id, renameAll_id body]
  | rangeLoop iterator low op high body =>
    rw [rename, low.rename_id, high.rename_id, renameAll_id body]
    rfl
  | eachLoop iterator collection body =>
    rw [rename, collection.rename_id, renameAll_id body]
    rfl
  | perform call => rw [rename, call.rename_id]
termination_by structural s

theorem Stmt.renameAll_id (ss : List Stmt) : Stmt.renameAll id ss = ss := by
  cases ss with
  | nil => rfl
  | cons s ss => rw [renameAll, s.rename_id, renameAll_id ss]
termination_by structural ss

end

end Typed

theorem TypeTable.rename_id (table : TypeTable) : table.rename id = table := by
  rw [rename, show StructDef.rename id = id from rfl, List.map_id]

theorem Typed.Program.rename_id (p : Typed.Program) : p.rename id = p := by
  rw [rename, Stmt.renameAll_id, TypeTable.rename_id]

theorem Entity.renameEntry_id (e : String × Entity) : Entity.renameEntry id e = e := by
  obtain ⟨name, entity⟩ := e
  cases entity <;> rfl

theorem Library.rename_id (lib : Library) : lib.rename id = lib := by
  obtain ⟨entries, nextId, _⟩ := lib
  simp [rename, funext Entity.renameEntry_id]

/-! ## Causes of faults -/

/-- The causes are of one kind, and of meaning. Where no name changes, they are one. -/
structure Cause.Akin (c c' : Cause) : Prop where
  name : c.name = c'.name
  ofMeaning : c.isSyntactic = false
  eq_of_id : r = id → c = c'

variable {r} in
theorem Cause.Akin.refl {c : Cause} (h : c.isSyntactic = false) : c.Akin r c :=
  ⟨rfl, h, fun _ => rfl⟩

/-- A cause may describe types, which does mention the names of structs. -/
theorem Check.Env.akin_describe (env : Check.Env) (c : (Ty → String) → Cause)
    (hname : ∀ f g, (c f).name = (c g).name) (hmeaning : ∀ f, (c f).isSyntactic = false) :
    (c env.describe).Akin r (c (env.rename r).describe) := by
  refine ⟨hname _ _, hmeaning _, ?_⟩
  rintro rfl
  have hdescribe : (env.rename id).describe = env.describe :=
    congrArg TypeTable.describe env.types.rename_id
  rw [hdescribe]

/-! ## The table of structs -/

namespace TypeTable

variable (table : TypeTable)

/-- Fields are found under the same number. -/
@[simp] theorem fields_get_rename (id : StructId) :
    ((table.rename r).get id).fields = (table.get id).fields := by
  unfold get rename
  rw [List.getD_eq_getElem?_getD, List.getD_eq_getElem?_getD, List.getElem?_map]
  cases table.structs[id.index]? <;> rfl

@[simp] theorem nextId_rename : (table.rename r).nextId = table.nextId := by
  simp [nextId, rename]

theorem declare_rename (name : String) :
    (table.rename r).declare (r name) = (table.declare name).rename r := by
  simp [declare, rename, StructDef.rename]

theorem modify_rename (id : StructId) (fields : List Field) :
    (table.rename r).structs.modify id.index (fun d => { d with fields := fields }) =
      (table.structs.modify id.index fun d => { d with fields := fields }).map
        (StructDef.rename r) := by
  unfold rename
  induction table.structs generalizing id with
  | nil => cases hid : id.index <;> simp
  | cons d ds ih =>
    obtain ⟨n⟩ := id
    cases n with
    | zero => rfl
    | succ n => simpa using ih ⟨n⟩

/-- Fields are given to a renamed struct as to the struct, or refused for a cause that is akin. -/
theorem define_rename (id : StructId) (fields : List Field) :
    (∃ t, table.define id fields = .ok t ∧ (table.rename r).define id fields = .ok (t.rename r)) ∨
      ∃ c c', table.define id fields = .error c ∧ (table.rename r).define id fields = .error c' ∧
        c.Akin r c' := by
  unfold define
  cases firstRepeated? (fields.map (·.name)) with
  | some field =>
    refine .inr ⟨_, _, rfl, rfl, rfl, rfl, ?_⟩
    rintro rfl
    rw [rename_id]
  | none =>
    dsimp only
    split_ifs
    · refine .inr ⟨_, _, rfl, rfl, rfl, rfl, ?_⟩
      rintro rfl
      rw [rename_id]
    · refine .inl ⟨_, rfl, ?_⟩
      rw [modify_rename]
      rfl

end TypeTable

/-! ## Scopes -/

section

variable {r} (hr : Function.Injective r)

include hr

theorem Entity.lookup_renameEntry (names : List (String × Entity)) (name : String) :
    (names.map (Entity.renameEntry r)).lookup (r name) =
      (names.lookup name).map (Entity.rename r) := by
  induction names with
  | nil => rfl
  | cons e names ih =>
    have hbeq : (r name == r e.1) = (name == e.1) := by
      rw [Bool.eq_iff_iff, beq_iff_eq, beq_iff_eq]
      exact hr.eq_iff
    rw [List.map_cons, Entity.renameEntry, List.lookup_cons, hbeq, List.lookup_cons, ih]
    cases name == e.1 <;> rfl

theorem Scope.find?_rename (s : Scope) (name : String) :
    (s.rename r).find? (r name) = (s.find? name).map (Entity.rename r) :=
  Entity.lookup_renameEntry hr s.names name

/-- A name stands for the renamed entity. -/
theorem Scopes.find?_rename (s : Scopes) (name : String) :
    (s.rename r).find? (r name) = (s.find? name).map (Entity.rename r) := by
  have hfind : (fun t : Scope => (t.rename r).find? (r name)) =
      fun t => (t.find? name).map (Entity.rename r) := by
    funext t
    exact t.find?_rename hr name
  unfold find?
  rw [show (s.rename r).toList = s.toList.map (Scope.rename r) from rfl, List.findSome?_map,
    List.map_findSome?]
  exact congrArg (List.findSome? · s.toList) hfind

end

namespace Scopes

theorem push_rename (s : Scopes) (kind : ScopeKind) :
    (s.rename r).push (kind.rename r) = (s.push kind).rename r := by
  cases kind <;> rfl

theorem pop_rename (s : Scopes) : (s.rename r).pop = s.pop.rename r := by
  obtain ⟨inner, outer⟩ := s
  cases outer <;> rfl

end Scopes

theorem Library.scopes_rename (lib : Library) : (lib.rename r).scopes = lib.scopes.rename r := by
  have hfold : ∀ (entries : List (String × Entity)) (s : Scopes),
      (entries.map (Entity.renameEntry r)).foldl (fun s e => s.define e.1 e.2) (s.rename r) =
        (entries.foldl (fun s e => s.define e.1 e.2) s).rename r := by
    intro entries
    induction entries with
    | nil => exact fun s => rfl
    | cons e entries ih => exact fun s => ih (s.define e.1 e.2)
  exact hfold lib.entries .root

end Quill
