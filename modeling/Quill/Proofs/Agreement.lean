import Quill.Proofs.Bindings
import Quill.Proofs.Parsed

/-!
# The state in which a statement is checked

Names are looked up in the state of the checker, which comes and goes. What a name stands for can
also be read off a finished program: `Site.scopes` lists the scopes around a place, the innermost
first, each with the declarations before the place. `Agrees lib types s d` says that a state and a
place agree: on what each name stands for, and on the loop and the function around.

A statement of the syntax tree and one of the program are twins if they stand at the same place of
the two trees; a chained branch counts as an alternative with one statement.

Results:
* `Agrees.past`, `Agrees.into`: agreement is kept from statement to statement, and from a statement
  to a list inside it.
* `Checks.entered`: the lists inside a statement are checked where they stand.
* **`exists_twin`**, **`checks_of_twin`**: every statement of a checked program has a twin, and
  every pair of twins was checked in a state that agrees with its place.
-/

namespace Quill

/-! ## What a name stands for at a place -/

namespace Typed.Site

/-- The names of the scopes around a list, the innermost first, as far as they are declared by the
statements of the list before the place, by the statements around it, by those before them, or by
the library. -/
def scopesFrom (lib : Library) (types : TypeTable) (before : List Stmt) :
    List (Stmt × List Stmt) → List (List (String × Entity))
  | [] => [lib.entries ++ bindings types (before.filterMap Stmt.declared?)]
  | (owner, outer) :: around =>
    bindings types (owner.locals.map .variable ++ before.filterMap Stmt.declared?) ::
      scopesFrom lib types (outer ++ [owner]) around

variable (lib : Library) (types : TypeTable)

/-- The scopes around a place, the innermost first, with what has been declared in each. -/
def scopes (d : Site) : List (List (String × Entity)) := scopesFrom lib types d.before d.around

/-- What a name stands for at a place: its last declaration in the innermost scope that has one. -/
def lookup (d : Site) (name : String) : Option Entity :=
  (d.scopes lib types).findSome? fun scope => scope.reverse.lookup name

variable {lib types} {name : String}

theorem findSome?_lookup_append (scope bs : List (String × Entity))
    (outer : List (List (String × Entity))) :
    ((scope ++ bs) :: outer).findSome? (fun s => s.reverse.lookup name) =
      (bs.reverse.lookup name).or ((scope :: outer).findSome? fun s => s.reverse.lookup name) := by
  simp only [List.findSome?_cons, List.reverse_append, List.lookup_append]
  cases bs.reverse.lookup name <;> rfl

/-- Behind some statements, their declarations come first. -/
theorem lookup_past (c : Site) (ts : List Stmt) : (c.past ts).lookup lib types name =
    ((bindings types (ts.filterMap Stmt.declared?)).reverse.lookup name).or
      (c.lookup lib types name) := by
  obtain ⟨before, around⟩ := c
  cases around with
  | nil =>
    simp only [lookup, scopes, past, scopesFrom, bindings, List.filterMap_append, List.map_append,
      ← List.append_assoc]
    exact findSome?_lookup_append ..
  | cons o around =>
    simp only [lookup, scopes, past, scopesFrom, bindings, List.filterMap_append, List.map_append,
      ← List.append_assoc]
    exact findSome?_lookup_append ..

/-- Inside a statement, its parameters or its iterator come first. -/
theorem lookup_into (c : Site) (t : Stmt) : (c.into t).lookup lib types name =
    ((bindings types (t.locals.map .variable)).reverse.lookup name).or
      ((c.past [t]).lookup lib types name) := by
  simp only [lookup, scopes, into, past, scopesFrom, List.filterMap_nil, List.append_nil,
    List.findSome?_cons]
  cases (bindings types (t.locals.map .variable)).reverse.lookup name <;> rfl

/-- Whatever a name stands for at a place is of the library or has been declared there. -/
theorem mem_of_lookup {d : Site} {x : Entity} (h : d.lookup lib types name = some x) :
    (name, x) ∈ lib.entries ∨ x ∈ d.visible := by
  obtain ⟨scope, hscope, hx⟩ := List.exists_of_findSome?_eq_some h
  have hmem : (name, x) ∈ scope := by
    obtain ⟨l, r, hlr, -⟩ := List.lookup_eq_some_iff.mp hx
    rw [← List.mem_reverse, hlr]
    simp
  obtain ⟨before, around⟩ := d
  clear h hx
  -- outwards along the statements around; each passes its list on to the next
  induction around generalizing before with
  | nil =>
    obtain rfl := List.mem_singleton.mp hscope
    rcases List.mem_append.mp hmem with hlib | hdecl
    · exact .inl hlib
    · obtain ⟨y, hy, heq⟩ := List.mem_map.mp hdecl
      cases heq
      exact .inr (by simpa [visible] using hy)
  | cons o around ih =>
    rcases List.mem_cons.mp hscope with rfl | hscope
    · obtain ⟨y, hy, heq⟩ := List.mem_map.mp hmem
      cases heq
      simp only [visible, List.flatMap_cons, List.mem_append] at hy ⊢
      tauto
    · rcases ih _ hscope with hlib | hvis
      · exact .inl hlib
      · simp only [visible, List.flatMap_cons, List.mem_append] at hvis ⊢
        tauto

end Typed.Site

/-- The kind of the scopes that a statement opens. -/
def Typed.Stmt.scopeKind (t : Typed.Stmt) : ScopeKind :=
  match t.function?, t.isLoop with
  | some f, _ => .function f
  | none, true => .loop
  | none, false => .block

namespace Check

open Syntax Checker
open Typed (Site Stands)

variable {lib : Library} {types : TypeTable} {s s₁ s₂ s' : State} {c d : Site} {t : Typed.Stmt}

/-! ## States and places that agree -/

/-- The state and the place agree on what names stand for and on what is around; and the structs
declared before the place are in the table. -/
structure Agrees (lib : Library) (types : TypeTable) (s : State) (d : Site) : Prop where
  lookup : ∀ name, s.env.scopes.find? name = d.lookup lib types name
  inLoop : s.env.scopes.inLoop = true ↔ d.InLoop
  function : s.env.scopes.function = d.function?
  known : ∀ id, .type (.struct id) ∈ d.visible → id.index < s.env.types.structs.length

namespace Agrees

theorem scopes_initial (lib : Library) :
    (State.initial lib).env.scopes = ⟨⟨lib.entries.reverse, false, none⟩, []⟩ := by
  show Scopes.bindAll .root lib.entries = _
  rw [Scopes.bindAll_eq]
  simp [Scopes.root, Scope.root]

theorem start (lib : Library) (types : TypeTable) : Agrees lib types (.initial lib) .start where
  lookup name := by
    rw [scopes_initial]
    simp [Scopes.find?, Scopes.toList, Scope.find?, Site.lookup, Site.scopes, Site.start,
      Site.scopesFrom, bindings]
  inLoop := by
    rw [scopes_initial]
    exact iff_of_false Bool.false_ne_true Site.not_inLoop_start
  function := by
    rw [scopes_initial]
    rfl
  known := nofun

/-- Agreement is kept when statements are passed by whose declarations are bound. -/
theorem past (h : Agrees lib types s c) {ts : List Typed.Stmt}
    (hb : Binds types s (ts.filterMap Typed.Stmt.declared?) s') :
    Agrees lib types s' (c.past ts) where
  lookup name := by rw [hb.scopes, Scopes.find?_bindAll, Site.lookup_past, h.lookup]
  inLoop := by
    rw [hb.scopes, Scopes.bindAll_eq]
    exact h.inLoop
  function := by
    rw [hb.scopes, Scopes.bindAll_eq]
    exact h.function
  known id hid := by
    rcases Site.mem_visible_past.mp hid with hid | ⟨u, hu, hd⟩
    · exact (h.known id hid).trans_le hb.grows.length_le
    · exact hb.known id (List.mem_filterMap.mpr ⟨u, hu, hd⟩)

/-- Agreement is kept when nothing is bound. -/
theorem grow (h : Agrees lib types s c) (hb : Binds types s [] s') : Agrees lib types s' c := by
  have hpast : Agrees lib types s' (c.past []) := h.past hb
  rwa [Site.past_nil] at hpast

theorem inLoop_into (h : Agrees lib types s c) :
    (s.enter t.scopeKind).env.scopes.inLoop = true ↔ (c.into t).InLoop := by
  cases hf : t.function? with
  | some f =>
    simp only [Typed.Stmt.scopeKind, hf]
    exact iff_of_false Bool.false_ne_true (Site.inLoop_into_function hf)
  | none =>
    cases hl : t.isLoop with
    | true =>
      simp only [Typed.Stmt.scopeKind, hf, hl]
      exact iff_of_true rfl (Site.inLoop_into_loop hl)
    | false =>
      simp only [Typed.Stmt.scopeKind, hf, hl]
      exact h.inLoop.trans (Site.inLoop_into_other hl hf).symm

theorem function_into (h : Agrees lib types s c) :
    (s.enter t.scopeKind).env.scopes.function = (c.into t).function? := by
  cases hf : t.function? with
  | some f =>
    simp only [Typed.Stmt.scopeKind, hf, Site.function?_into_function hf]
    rfl
  | none =>
    rw [Site.function?_into_other hf]
    cases hl : t.isLoop <;> simp only [Typed.Stmt.scopeKind, hf, hl] <;> exact h.function

/-- Agreement is kept when a statement is entered: what it declares is bound outside, its parameters
or its iterator inside. -/
theorem into (h : Agrees lib types s c)
    (hd : Binds types s ([t].filterMap Typed.Stmt.declared?) s₁)
    (hl : Binds types (s₁.enter t.scopeKind) (t.locals.map .variable) s') :
    Agrees lib types s' (c.into t) where
  lookup name := by
    rw [hl.scopes, Scopes.find?_bindAll, Site.lookup_into, ← (h.past hd).lookup]
    exact congrArg _ (Scopes.find?_push _)
  inLoop := by
    rw [hl.scopes, Scopes.bindAll_eq]
    exact (h.past hd).inLoop_into
  function := by
    rw [hl.scopes, Scopes.bindAll_eq]
    exact (h.past hd).function_into
  known id hid := by
    rcases Site.mem_visible_into.mp hid with ⟨v, -, hv⟩ | hid | hid
    · cases hv
    · have hmem := List.mem_filterMap.mpr ⟨t, List.mem_singleton_self t, hid⟩
      exact (hd.known id hmem).trans_le hl.grows.length_le
    · exact (h.known id hid).trans_le (hd.grows.trans hl.grows).length_le

/-- A chained branch is checked in the scope of the first. -/
theorem intoBranch (h : Agrees lib types s c) (hb : t.isBranch = true) :
    Agrees lib types s (c.into t) where
  lookup name := by
    rw [Site.lookup_into, Site.lookup_past, Typed.Stmt.locals_of_isBranch hb,
      List.filterMap_cons_none (Typed.Stmt.declared?_of_isBranch hb)]
    exact h.lookup name
  inLoop := h.inLoop.trans (Site.inLoop_into_branch hb).symm
  function := h.function.trans (Site.function?_into_branch hb).symm
  known id hid := h.known id ((Site.mem_visible_into_branch hb).mp hid)

end Agrees

/-! ## Twins -/

/-- `Twin c as ts d a t`: where the two lists start at `c`, the statements `a` and `t` stand at the
same place of the two, which is `d`. -/
inductive Twin : Site → List Stmt → List Typed.Stmt → Site → Stmt → Typed.Stmt → Prop
  | here {c : Site} {a : Stmt} {as : List Stmt} {t : Typed.Stmt} {ts : List Typed.Stmt} :
      Twin c (a :: as) (t :: ts) c a t
  | later {c d : Site} {a b : Stmt} {as : List Stmt} {t u : Typed.Stmt} {ts : List Typed.Stmt}
      (h : Twin (c.past [t]) as ts d b u) : Twin c (a :: as) (t :: ts) d b u
  | inside {c d : Site} {a b : Stmt} {as bs : List Stmt} {t u : Typed.Stmt}
      {ts us : List Typed.Stmt} (hb : (bs, us) ∈ a.bodies.zip t.bodies)
      (h : Twin (c.into t) bs us d b u) : Twin c (a :: as) (t :: ts) d b u

variable {a : Stmt} {as : List Stmt} {ts : List Typed.Stmt}

/-- The list inside a statement at `c` was checked where it stands, and no two of the names that
were declared in its scope are the same. -/
def Entered (lib : Library) (types : TypeTable) (c : Site) (t : Typed.Stmt) (as : List Stmt)
    (ts : List Typed.Stmt) : Prop :=
  ∃ s s', Checks s (.stmts as ts) s' ∧ s'.env.types.structs <+: types.structs ∧
    Agrees lib types s (c.into t) ∧
    ((bindings types (t.locals.map .variable ++ ts.filterMap Typed.Stmt.declared?)).map
      Prod.fst).Nodup

theorem Agrees.entered (h : Agrees lib types s c)
    (hd : Binds types s ([t].filterMap Typed.Stmt.declared?) s₁)
    (hl : Binds types (s₁.enter t.scopeKind) (t.locals.map .variable) s₂)
    (hbody : Checks s₂ (.stmts as ts) s') (htypes : s'.env.types.structs <+: types.structs) :
    Entered lib types c t as ts :=
  ⟨s₂, s', hbody, htypes, h.into hd hl, (hl.trans (hbody.binds htypes)).new.1⟩

/-- The list inside a branch, an arm or the alternative. -/
theorem Agrees.enteredArm (h : Agrees lib types s c) (hb : t.isBranch = true)
    (hbody : Checks (s.enter .block) (.stmts as ts) s')
    (htypes : s'.env.types.structs <+: types.structs) : Entered lib types c t as ts := by
  have hkind : t.scopeKind = .block := by
    simp only [Typed.Stmt.scopeKind, Typed.Stmt.function?_of_isBranch hb,
      Typed.Stmt.isLoop_of_isBranch hb]
  have hd : Binds types s ([t].filterMap Typed.Stmt.declared?) s := by
    rw [List.filterMap_cons_none (Typed.Stmt.declared?_of_isBranch hb)]
    exact .refl types s
  have hl : Binds types (s.enter t.scopeKind) (t.locals.map .variable) (s.enter .block) := by
    rw [Typed.Stmt.locals_of_isBranch hb, hkind]
    exact .refl types _
  exact h.entered hd hl hbody htypes

theorem Checks.enteredAlternative {rest : Alternative} {no : Option (List Typed.Stmt)}
    (h : Checks s (.alternative rest no) s') (htypes : s'.env.types.structs <+: types.structs)
    (hs : Agrees lib types s c) (hb : t.isBranch = true)
    (hmem : (as, ts) ∈ rest.bodies.zip no.toList) : Entered lib types c t as ts := by
  cases h with
  | nothing => cases hmem
  | otherwise hbody =>
    obtain ⟨rfl, rfl⟩ : as = _ ∧ ts = _ := by simpa [Alternative.bodies] using hmem
    exact hs.enteredArm hb hbody htypes
  | elseIf hbranch =>
    obtain ⟨rfl, rfl⟩ : as = _ ∧ ts = _ := by simpa [Alternative.bodies] using hmem
    refine ⟨s, s', .cons hbranch .nil, htypes, hs.intoBranch hb, ?_⟩
    cases hbranch
    simp [Typed.Stmt.locals_of_isBranch hb, declared?_typedBranch, bindings]

theorem bodies_typedBranch (e : Typed.Expr) (yes : List Typed.Stmt)
    (no : Option (List Typed.Stmt)) : (typedBranch e yes no).bodies = yes :: no.toList := by
  cases no <;> rfl

/-- **The lists inside a statement were checked where they stand.** -/
theorem Checks.entered (h : Checks s (.stmt a t) s')
    (htypes : s'.env.types.structs <+: types.structs) (hs : Agrees lib types s c)
    (hmem : (as, ts) ∈ a.bodies.zip t.bodies) : Entered lib types c t as ts := by
  cases h with
  | function _ hf hnew hparams hbody =>
    obtain ⟨rfl, rfl⟩ : as = _ ∧ ts = _ := by simpa [Stmt.bodies, Typed.Stmt.bodies] using hmem
    exact hs.entered (.function (congrArg Function.name hf) hnew) (parameters_binds hparams) hbody
      htypes
  | branch _ _ hyes hno =>
    rw [bodies_typedBranch, Stmt.bodies, List.zip_cons_cons, List.mem_cons] at hmem
    have hgrows := (hno.binds htypes).grows.trans htypes
    rcases hmem with heq | hmem
    · cases heq
      exact hs.enteredArm (isBranch_typedBranch _ _ _) hyes hgrows
    · have hs := hs.grow (hyes.binds hgrows).leave
      exact hno.enteredAlternative htypes hs (isBranch_typedBranch _ _ _) hmem
  | whileLoop _ _ hbody | repeatLoop _ _ hbody =>
    obtain ⟨rfl, rfl⟩ : as = _ ∧ ts = _ := by simpa [Stmt.bodies, Typed.Stmt.bodies] using hmem
    exact hs.entered (.refl types s) (.refl types _) hbody htypes
  | rangeLoop _ _ _ _ hv hbody | eachLoop _ _ hv hbody =>
    obtain ⟨rfl, rfl⟩ : as = _ ∧ ts = _ := by simpa [Stmt.bodies, Typed.Stmt.bodies] using hmem
    exact hs.entered (.refl types s) (.var (congrArg Variable.name hv) rfl) hbody htypes
  | _ => cases hmem

theorem Checks.length_bodies (h : Checks s (.stmt a t) s') :
    a.bodies.length = t.bodies.length := by
  cases h with
  | branch _ _ _ hno =>
    rw [bodies_typedBranch]
    cases hno <;> rfl
  | _ => rfl

/-- Every list inside a checked statement has its counterpart. -/
theorem Checks.exists_mem_zip (h : Checks s (.stmt a t) s') (hb : ts ∈ t.bodies) :
    ∃ as, (as, ts) ∈ a.bodies.zip t.bodies := by
  obtain ⟨i, hi, rfl⟩ := List.getElem_of_mem hb
  have hlen : i < (a.bodies.zip t.bodies).length := by
    rw [List.length_zip, h.length_bodies, min_self]
    exact hi
  exact ⟨_, List.mem_of_getElem (h := hlen) List.getElem_zip⟩

/-! ## Checked programs -/

/-- Every statement that stands in a checked list has a twin. -/
theorem exists_twin_of_stands (h : Stands c ts d t)
    (hc : Checks s (.stmts as ts) s') (htypes : s'.env.types.structs <+: types.structs)
    (hs : Agrees lib types s c) : ∃ a, Twin c as ts d a t := by
  induction h generalizing as s s' with
  | here =>
    cases hc
    exact ⟨_, .here⟩
  | later _ ih =>
    cases hc with
    | cons hhead htail =>
      have hgrows := (htail.binds htypes).grows.trans htypes
      obtain ⟨a, ha⟩ := ih htail htypes (hs.past (hhead.binds hgrows))
      exact ⟨a, .later ha⟩
  | inside hb _ ih =>
    cases hc with
    | cons hhead htail =>
      have hgrows := (htail.binds htypes).grows.trans htypes
      obtain ⟨as, hmem⟩ := hhead.exists_mem_zip hb
      obtain ⟨s₁, s₂, hbody, hpre, hin, -⟩ := hhead.entered hgrows hs hmem
      obtain ⟨a, ha⟩ := ih hbody hpre hin
      exact ⟨a, .inside hmem ha⟩

/-- Twins of a checked list were checked where they stand. By induction on the way from the list to
the twins. -/
theorem Twin.checks (h : Twin c as ts d a t) (hc : Checks s (.stmts as ts) s')
    (htypes : s'.env.types.structs <+: types.structs) (hs : Agrees lib types s c) :
    ∃ s₁ s₂, Checks s₁ (.stmt a t) s₂ ∧ s₂.env.types.structs <+: types.structs ∧
      Agrees lib types s₁ d := by
  induction h generalizing s s' with
  | here =>
    cases hc with
    | cons hhead htail => exact ⟨_, _, hhead, (htail.binds htypes).grows.trans htypes, hs⟩
  | later _ ih =>
    cases hc with
    | cons hhead htail =>
      have hgrows := (htail.binds htypes).grows.trans htypes
      exact ih htail htypes (hs.past (hhead.binds hgrows))
  | inside hmem _ ih =>
    cases hc with
    | cons hhead htail =>
      have hgrows := (htail.binds htypes).grows.trans htypes
      obtain ⟨s₁, s₂, hbody, hpre, hin, -⟩ := hhead.entered hgrows hs hmem
      exact ih hbody hpre hin

section

variable {b : Block} {p : Typed.Program} (h : program lib b = .ok p)

include h

/-- **Every statement of a checked program has a twin.** -/
theorem exists_twin (ht : p.At d t) : ∃ a, Twin .start b.body p.statements d a t := by
  obtain ⟨s, hs, hp⟩ := checks_of_program h
  exact exists_twin_of_stands ht hs (hp ▸ List.prefix_rfl) (.start lib p.types)

/-- **Twins of a checked program were checked where they stand.** -/
theorem checks_of_twin (ht : Twin .start b.body p.statements d a t) :
    ∃ s₁ s₂, Checks s₁ (.stmt a t) s₂ ∧ s₂.env.types.structs <+: p.types.structs ∧
      Agrees lib p.types s₁ d := by
  obtain ⟨s, hs, hp⟩ := checks_of_program h
  exact ht.checks hs (hp ▸ List.prefix_rfl) (.start lib p.types)

end

end Check

end Quill
