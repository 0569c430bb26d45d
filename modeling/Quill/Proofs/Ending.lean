import Quill.Proofs.Descent

/-!
# Parsing ends

Where a parser calls itself, also by way of others, or a loop goes on, `below c` can be put around
the call, for the cursor `c` where the parser or the round of the loop has started, and nothing
changes. So all these calls are made at lighter cursors. The other calls are made to parsers that
never call back.

Results:
* `guarded`: every such call, and every round of a loop, is at a lighter cursor.
* **`parse_ends`**: every list of tokens is parsed, or a fault is found in it.
-/

namespace Quill

open Syntax

/-! ## Calls at lighter cursors -/

section

open Quill.Parser Quill.Parse

/-- Each of the loops over such items goes on at cursors lighter than `c` only. -/
structure Parser.LoopsBelow {α : Type} (item : Parser α) (c : Cursor) : Prop where
  separated : ∀ n, c.weight ≤ n + 1 →
    commaSeparated item (n + 1) c = Round.separated item (below c (commaSeparated item n)) c
  closed : ∀ close n, c.weight ≤ n + 1 →
    commaClosed close item (n + 1) c
      = Round.closed close item (below c (commaClosed close item n)) c
  optional : ∀ close n, c.weight ≤ n + 1 →
    commaOptional close item (n + 1) c
      = Round.commaOptional close item (below c (commaOptional close item n)) c

theorem Parser.DescendsUnder.loopsBelow {α : Type} {Q : α → α → Prop} {item : Parser α}
    {c : Cursor} (h : DescendsUnder .same (c.weight + 1) Q item item)
    (hQ : ∀ {as bs : List α}, List.Forall₂ Q as bs → as = bs) : LoopsBelow item c := by
  have hitem : Descends (.twice c) 1 Q item item := h (.twice c) (Nat.lt_succ_self _)
  refine ⟨fun n hn => ?_, fun close n hn => ?_, fun close n hn => ?_⟩
  · refine (descends_separated hitem fun d (hd : d.weight < c.weight) => ?_).same hQ
    exact (descends_commaSeparated h (by omega) (by omega) (by omega)).loosen.below hd
  · refine (descends_closed hitem (fun d (hd : d.weight < c.weight) => ?_) close).same hQ
    exact (descends_commaClosed h (by omega) (by omega) (by omega) close).below hd
  · refine (descends_optional hitem (fun d (hd : d.weight < c.weight) => ?_) close).same hQ
    exact (descends_commaOptional h (by omega) (by omega) (by omega) close).below hd

/-- Within a budget of the weight, each parser calls itself, also by way of others, and each loop
goes on, at cursors lighter than its own only. The calls that are left go from statements to
expressions and annotations, and from expressions to annotations. -/
structure Guarded (c : Cursor) : Prop where
  typeTails : ∀ n power left, c.weight ≤ n + 1 →
    typeTail .standard power (n + 1) left c
      = Round.typeTail .standard power (fun t => below c (typeTail .standard power n t)) left c
  types : ∀ n power, c.weight ≤ n + 1 →
    typeExpr .standard (n + 1) power c
      = (typeHead .standard (below c (typeExpr .standard n .weakest)) n
          >>= typeTail .standard power n) c
  typeLists : ∀ m, c.weight ≤ m → LoopsBelow (typeExpr .standard m .weakest) c
  exprTails : ∀ n m power left, c.weight ≤ n + 1 → c.weight ≤ m →
    exprTail .standard (expr .standard m) power (n + 1) left c
      = Round.exprTail .standard (fun p => below c (expr .standard m p)) power n
          (fun e => below c (exprTail .standard (expr .standard m) power n e)) left c
  exprs : ∀ n power, c.weight ≤ n + 1 →
    expr .standard (n + 1) power c
      = (exprHead .standard (fun p => below c (expr .standard n p))
            (typeExpr .standard n .weakest) n
          >>= exprTail .standard (fun p => below c (expr .standard n p)) power n) c
  exprLists : ∀ m, c.weight ≤ m → LoopsBelow (expr .standard m .weakest) c
  bindingLists : ∀ m, c.weight ≤ m → LoopsBelow (binding (typeExpr .standard m .weakest)) c
  blocks : ∀ n m, c.weight ≤ n + 1 → c.weight ≤ m →
    block (stmt .standard m) n c = block (below c (stmt .standard m)) n c
  blockBodies : ∀ n m, c.weight ≤ n + 1 → c.weight < m →
    blockBody (stmt .standard m) (n + 1) c
      = Round.blockBody (stmt .standard m) (below c (blockBody (stmt .standard m) n)) c
  alternatives : ∀ n m, c.weight ≤ n + 1 → c.weight ≤ m →
    alternative (expr .standard m .weakest) (block (stmt .standard m) m) (n + 1) c
      = Round.alternative (expr .standard m .weakest) (block (stmt .standard m) m)
          (below c (alternative (expr .standard m .weakest) (block (stmt .standard m) m) n)) c
  stmts : ∀ n, c.weight ≤ n →
    stmt .standard (n + 1) c
      = Round.stmt .standard (expr .standard n .weakest) (typeExpr .standard n .weakest)
          (below c (block (stmt .standard n) n)) n c
  programs : ∀ n m, c.weight ≤ n + 1 → c.weight < m →
    untilEnd (stmt .standard m) (n + 1) c
      = Round.untilEnd (stmt .standard m) (below c (untilEnd (stmt .standard m) n)) c

theorem guarded (c : Cursor) : Guarded c := by
  have htype : ∀ {m}, c.weight ≤ m → DescendsUnder .same (c.weight + 1) (TypeExpr.Alike .same)
      (typeExpr .standard m .weakest) (typeExpr .standard m .weakest) := fun hm d hd =>
    descends_typeExpr .weakest (by omega) (by omega)
  have hexpr : ∀ {m} power, c.weight ≤ m + 1 → DescendsUnder .same c.weight (Expr.Alike .same)
      (expr .standard m power) (expr .standard m power) := fun power hm d hd =>
    descends_expr power (by omega) (by omega)
  have hstmt : ∀ {m} {d : Cursor.Pair .same}, d.weight < m → Descends d 1 (Stmt.Alike .same)
      (stmt .standard m) (stmt .standard m) := fun hm => (completes_stmt hm hm).toDescends
  have hblock : ∀ {m}, c.weight ≤ m → CompletesUnder .same c.weight (Block.Alike .same)
      (block (stmt .standard m) m) (block (stmt .standard m) m) := fun hm d hd =>
    completes_block (fun e he => hstmt (by omega)) (by omega) (by omega)
  -- what is lighter than `c` is within the budget that is left
  have hlighter : ∀ {n} {d : Cursor.Pair .same}, c.weight ≤ n + 1 → d.weight < c.weight →
      d.weight ≤ n := fun hn hd => Nat.le_of_lt_succ (hd.trans_le hn)
  constructor
  case typeTails =>
    intro n power left hn
    refine (descends_typeTailRound (c := .twice c) power (fun hab d hd => ?_)
      (TypeExpr.alike_self left)).same TypeExpr.eq_of_alike
    exact (descends_typeTail power (hlighter hn hd) (hlighter hn hd) hab).below hd
  case types =>
    intro n power hn
    refine (descends_typeRound (c := .twice c) (DescendsUnder.below fun d hd => ?_) power hn
      hn).same TypeExpr.eq_of_alike
    exact descends_typeExpr .weakest (hlighter hn hd) (hlighter hn hd)
  case typeLists => exact fun m hm => (htype hm).loopsBelow TypeExpr.all_eq_of_alike
  case exprTails =>
    intro n m power left hn hm
    have hcalls := fun p => hexpr p (hm.trans m.le_succ)
    refine (descends_exprTailRound (c := .twice c) (fun p => (hcalls p).below) power hn hn
      (fun hab d hd => ?_) (Expr.alike_self left)).same Expr.eq_of_alike
    exact (descends_exprTail hcalls power hd (hlighter hn hd) (hlighter hn hd) hab).below hd
  case exprs =>
    intro n power hn
    refine (descends_exprRound (c := .twice c) (fun p => (hexpr p hn).below) (fun d hd => ?_) power
      hn hn).same Expr.eq_of_alike
    exact descends_typeExpr .weakest (hlighter hn hd) (hlighter hn hd)
  case exprLists =>
    refine fun m hm => DescendsUnder.loopsBelow (fun d hd => ?_) Expr.all_eq_of_alike
    exact descends_expr .weakest (by omega) (by omega)
  case bindingLists =>
    refine fun m hm => DescendsUnder.loopsBelow (fun d hd => ?_) Binding.all_eq_of_alike
    exact descends_binding ((htype hm).mono hd.le)
  case blocks =>
    intro n m hn hm
    refine (completes_block (c := .twice c) (DescendsUnder.below fun d hd => ?_) hn hn).same
      Block.eq_of_alike
    exact hstmt (hd.trans_le hm)
  case blockBodies =>
    intro n m hn hm
    refine (descends_blockBodyRound (c := .twice c) (hstmt hm) fun d hd => ?_).same
      Stmt.all_eq_of_alike
    refine (descends_blockBody (fun e he => ?_) hd (hlighter hn hd) (hlighter hn hd)).below hd
    exact hstmt (he.trans hm)
  case alternatives =>
    intro n m hn hm
    have hcalls := hexpr .weakest (hm.trans m.le_succ)
    refine (completes_alternativeRound (c := .twice c) hcalls (hblock hm) fun d hd => ?_).same
      Alternative.eq_of_alike
    exact (completes_alternative hcalls (hblock hm) hd (hlighter hn hd) (hlighter hn hd)).below hd
  case stmts =>
    intro n hn
    have hround : c.weight ≤ n + 1 := hn.trans n.le_succ
    refine (completes_stmtRound (c := .twice c) (fun d hd => ?_) ((htype hn).mono (Nat.le_succ _))
      (hblock hn).below hround hround).same Stmt.eq_of_alike
    have hle : d.weight ≤ n := (Nat.le_of_lt_succ hd).trans hn
    exact descends_expr .weakest hle hle
  case programs =>
    intro n m hn hm
    refine (descends_untilEnd (c := .twice c) (hstmt hm) fun d hd => ?_).same Stmt.all_eq_of_alike
    exact (descends_stmts le_rfl le_rfl (hd.trans hm) (hlighter hn hd) (hlighter hn hd)).below hd

end

/-! ## Runs -/

/-- At every cursor `run` gives a result and takes at least `k` off the weight, or it gives a fault
and adds nothing to the weight. The parser `p` finds the same with every budget that is large
enough. -/
def Parser.Ends {α : Type} (k : Nat) (run : Cursor → Except Diagnostic α × Cursor)
    (p : Nat → Parser α) : Prop :=
  ∀ c : Cursor,
    (∃ a c', run c = (.ok a, c') ∧ c'.weight + k ≤ c.weight ∧
      ∀ n, c.budget ≤ n → p n c = .ok a c') ∨
    (∃ d c', run c = (.error d, c') ∧ c'.weight ≤ c.weight ∧
      ∀ n, c.budget ≤ n → p n c = .error (.fault d) c')

theorem Parser.ends_run {α : Type} {k : Nat} {Q : α → α → Prop} {p : Nat → Parser α}
    (h : ∀ (c : Cursor.Pair .same) (n m : Nat), c.weight < n → c.weight < m →
      Descends c k Q (p n) (p m))
    (hQ : ∀ {a b : α}, Q a b → a = b) : Ends k (fun c => c.run p) p := by
  intro c
  have hbudget : c.weight < c.budget := Nat.lt_succ_self _
  have hsame : ∀ n, c.budget ≤ n → p n c = p c.budget c := fun n hn =>
    (h (.twice c) n _ hn hbudget).same hQ
  have hspends : Spends c.weight k (p c.budget c) := (h (.twice c) _ _ hbudget hbudget).spends
  cases hp : p c.budget c with
  | ok a c' =>
    rw [hp] at hspends hsame
    exact .inl ⟨a, c', by simp only [Cursor.run, hp], hspends, hsame⟩
  | error f c' =>
    rw [hp] at hspends hsame
    obtain ⟨hle, d, rfl, -⟩ := hspends
    exact .inr ⟨d, c', by simp only [Cursor.run, hp]; rfl, hle, hsame⟩

open Quill.Parser Quill.Parse in
/-- Parsing ends. No step adds to the weight of a cursor; annotations, expressions, statements and
blocks take from it; every parser calls itself, and every loop goes on, at lighter cursors only. So
every list of tokens, wherever closing tokens stand in it, is a program or has a fault. -/
theorem parse_ends :
    (∀ c : Cursor, c.advance.weight ≤ c.weight ∧ (c.kind ≠ .eof → c.advance.weight < c.weight) ∧
      c.splitShift.weight = c.weight) ∧
    (∀ power, Ends 1 (Grammar.standard.parseType power) fun n => typeExpr .standard n power) ∧
    (∀ power, Ends 1 (Grammar.standard.parseExpr power) fun n => expr .standard n power) ∧
    Ends 1 Grammar.standard.parseStmt (stmt .standard) ∧
    Ends 1 Grammar.standard.parseBlock (fun n => block (stmt .standard n) n) ∧
    (∀ c, Guarded c) ∧
    ∀ (tokens : List Token) (file : String),
      (∃ b, parse tokens file = .ok b ∧ ∀ n, (Cursor.ofTokens tokens file).budget ≤ n →
        ∃ c, program .standard n (Cursor.ofTokens tokens file) = .ok b c) ∨
      (∃ d, parse tokens file = .error d ∧ ∀ n, (Cursor.ofTokens tokens file).budget ≤ n →
        ∃ c, program .standard n (Cursor.ofTokens tokens file) = .error (.fault d) c) := by
  refine ⟨fun c => ⟨c.weight_advance_le, Cursor.weight_advance_lt, c.weight_splitShift⟩,
    fun power => ?_, fun power => ?_, ?_, ?_, guarded, fun tokens file => ?_⟩
  · exact ends_run (fun _ _ _ hn hm => descends_typeExpr power hn.le hm.le) TypeExpr.eq_of_alike
  · exact ends_run (fun _ _ _ hn hm => descends_expr power hn.le hm.le) Expr.eq_of_alike
  · exact ends_run (fun _ _ _ hn hm => (completes_stmt hn hm).toDescends) Stmt.eq_of_alike
  · refine ends_run (fun c n m hn hm => (completes_block (fun d hd => ?_) ?_ ?_).toDescends)
      Block.eq_of_alike
    · exact (completes_stmt (hd.trans hn) (hd.trans hm)).toDescends
    · omega
    · omega
  · have hends := ends_run (fun _ _ _ hn hm => descends_program hn hm) Block.eq_of_wholeAlike
      (Cursor.ofTokens tokens file)
    obtain ⟨b, c, hrun, -, hp⟩ | ⟨d, c, hrun, -, hp⟩ := hends
    · exact .inl ⟨b, congrArg Prod.fst hrun, fun n hn => ⟨c, hp n hn⟩⟩
    · exact .inr ⟨d, congrArg Prod.fst hrun, fun n hn => ⟨c, hp n hn⟩⟩

/-- `let a = []<<int>>;` with the shift as one token and the closing one in the middle: what stands
behind that is not read. -/
def Sample.closedEarly : List Token :=
  [.word .letWord, .identifier, .mark .assign, .mark .openBracket, .mark .closeBracket, .mark .less,
    .mark .less, .identifier, .mark .shiftRight, .mark .semicolon, .eof, .mark .shiftRight].map
    fun kind => ⟨kind, "x", ⟨.start "shell", .start "shell"⟩⟩

/-- The cut of the shift does not use up a budget of one more than the weight. -/
theorem parse_ends_closedEarly :
    (Cursor.ofTokens Sample.closedEarly "shell").weight = 15 ∧
    ∃ b c, parse Sample.closedEarly "shell" = .ok b ∧
      Parse.program .standard 16 (Cursor.ofTokens Sample.closedEarly "shell") = .ok b c := by
  refine ⟨by decide, ?_⟩
  obtain ⟨-, -, -, -, -, -, hparse⟩ := parse_ends
  obtain ⟨b, hb, hrun⟩ | ⟨d, hd, -⟩ := hparse Sample.closedEarly "shell"
  · obtain ⟨c, hc⟩ := hrun 16 (by decide)
    exact ⟨b, c, hb, hc⟩
  · have hok : (parse Sample.closedEarly "shell").map (fun _ => ()) = .ok () := by decide +kernel
    rw [hd] at hok
    cases hok

end Quill
