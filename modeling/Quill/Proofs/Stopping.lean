import Quill.Proofs.Nesting

/-!
# Nothing is read behind the first closing token

A list of tokens may hold closing tokens before its last one. Passing a token never adds to the
closing tokens ahead, and takes one away only if it passes one. So a run that ends with as many of
them as it has started with has passed none at any of its steps. That is what `Steady` says, and the
walk over the grammar shows it (`descends_program`). The rest follows from the steps: where the
cursor stands at each of them, and that they are the same if the tokens end at the first closing
one.

Results:
* `Walks.reaches`, `Walks.resumes`: what holds of the steps of a run that passes no closing token.
* **`parse_stops`**: what stands behind a closing token does not matter, and the cursor stays at or
  before the first one.
-/

namespace Quill

open Syntax

/-! ## Runs that pass no closing token -/

/-- The tokens from the cursor on, with the closing one. -/
def Cursor.tokens (c : Cursor) : List Token := c.rest ++ [c.last.token]

/-- The cursor `d` is reached from `c` by passing tokens none of which is a closing one. -/
def Cursor.Reaches (c d : Cursor) : Prop := ∃ ts, Passes c ts d ∧ ∀ t ∈ ts, t.kind ≠ .eof

namespace Cursor.Reaches

variable {c d e : Cursor}

theorem refl (c : Cursor) : c.Reaches c := ⟨[], .refl c, List.forall_mem_nil _⟩

theorem trans (hcd : c.Reaches d) (hde : d.Reaches e) : c.Reaches e := by
  obtain ⟨ts, hts, hkinds⟩ := hcd
  obtain ⟨us, hus, hkinds'⟩ := hde
  exact ⟨ts ++ us, hts.trans hus, List.forall_mem_append.mpr ⟨hkinds, hkinds'⟩⟩

theorem splitShift (c : Cursor) : c.Reaches c.splitShift :=
  ⟨[], .splitShift c, List.forall_mem_nil _⟩

theorem advance (h : c.advance.endsAhead = c.endsAhead) : c.Reaches c.advance := by
  by_cases hopen : c.Open
  · have hkind := kind_ne_eof_of_endsAhead_advance hopen h
    exact ⟨[c.current], .advance hkind, List.forall_mem_singleton.mpr hkind⟩
  · -- the last token is never passed
    have hrest : c.rest = [] := not_not.mp hopen
    have hstay : c.advance = c := by rw [Cursor.advance, hrest]
    rw [hstay]
    exact refl c

end Cursor.Reaches

/-- The cursor where its tokens do not end: behind the last one, which is a closing one, there are
more, up to another closing one. -/
def Cursor.resumed (more : List Token) (last : EndToken) (c : Cursor) : Cursor :=
  c.before (c.last.token :: more) last

namespace Cursor

variable {c : Cursor} {more : List Token} {last : EndToken}

theorem open_resumed : (c.resumed more last).Open :=
  List.append_ne_nil_of_right_ne_nil _ (List.cons_ne_nil _ _)

theorem resumed_current : (c.resumed more last).current = c.current := by
  obtain ⟨e, rest, l⟩ := c
  cases rest <;> rfl

theorem resumed_advance (h : c.kind ≠ .eof) :
    (c.resumed more last).advance = c.advance.resumed more last := by
  have hlast : c.advance.last = c.last := (Passes.advance h).last
  rw [resumed, resumed, before_advance (open_of_kind h), hlast]

theorem resumed_splitShift :
    (c.resumed more last).splitShift = c.splitShift.resumed more last := by
  by_cases hkind : c.kind = .mark .shiftRight
  · have hopen : c.Open := open_of_kind (by rw [hkind]; decide)
    have hlast : c.splitShift.last = c.last := (Passes.splitShift c).last
    rw [resumed, resumed, before_splitShift hopen, hlast]
  · have hlong : (c.resumed more last).kind ≠ .mark .shiftRight := by
      rw [kind, resumed_current]
      exact hkind
    rw [splitShift_of_kind hkind, splitShift_of_kind hlong]

end Cursor

namespace Parser

variable {α : Type}

namespace Walks

variable {p : Parser α} {c : Cursor} {r : EStateM.Result Failure Cursor α} {ds : List Cursor}

/-- Where a run passes no closing token, none stands before any of its cursors but those that stood
before the first. -/
theorem reaches (h : Walks p c r ds) (hends : (left r).endsAhead = c.endsAhead) :
    c.Reaches (left r) ∧ ∀ d ∈ ds, c.Reaches d := by
  induction h with
  | pure | throw | peek | spanFrom => exact ⟨.refl _, List.forall_mem_nil _⟩
  | advance => exact ⟨.advance hends, List.forall_mem_singleton.mpr (.advance hends)⟩
  | splitShift c => exact ⟨.splitShift c, List.forall_mem_singleton.mpr (.splitShift c)⟩
  | bind hp hf ihp ihf =>
    have hfirst := hp.endsAhead_eq hf hends
    obtain ⟨hreach, hds⟩ := ihp hfirst
    obtain ⟨hreach', hes⟩ := ihf (hends.trans hfirst.symm)
    refine ⟨hreach.trans hreach', List.forall_mem_append.mpr ⟨hds, fun d hd => ?_⟩⟩
    exact hreach.trans (hes d hd)
  | bindError _ ihp => exact ihp hends

/-- A run that passes no closing token takes the same steps where the tokens end at one that is
ahead. -/
theorem resumes {more : List Token} {last : EndToken} (h : Walks p c r ds)
    (hends : (left r).endsAhead = c.endsAhead) {d : Cursor} (hd : c = d.resumed more last) :
    ∃ r' ds', Walks p d r' ds' ∧ r = moved (·.resumed more last) r' ∧
      ds = ds'.map (·.resumed more last) := by
  induction h generalizing d with
  | pure a => exact ⟨_, _, .pure a d, congrArg _ hd, rfl⟩
  | throw e => exact ⟨_, _, .throw e d, congrArg _ hd, rfl⟩
  | peek =>
    subst hd
    exact ⟨_, _, .peek d, congrArg (EStateM.Result.ok · _) Cursor.resumed_current, rfl⟩
  | spanFrom start =>
    subst hd
    exact ⟨_, _, .spanFrom start d, rfl, rfl⟩
  | advance =>
    subst hd
    have hcurrent : (d.resumed more last).current = d.current := Cursor.resumed_current
    have hkind : d.kind ≠ .eof := by
      have hlong := Cursor.kind_ne_eof_of_endsAhead_advance Cursor.open_resumed hends
      rwa [Cursor.kind, hcurrent] at hlong
    refine ⟨_, _, .advance d, ?_, ?_⟩
    · rw [hcurrent, Cursor.resumed_advance hkind, moved]
    · rw [Cursor.resumed_advance hkind, List.map_singleton]
  | splitShift =>
    subst hd
    refine ⟨_, _, .splitShift d, ?_, ?_⟩
    · rw [Cursor.resumed_splitShift, moved]
    · rw [Cursor.resumed_splitShift, List.map_singleton]
  | bind hp hf ihp ihf =>
    have hfirst := hp.endsAhead_eq hf hends
    obtain ⟨r₁, ds₁, hwalk₁, hr₁, rfl⟩ := ihp hfirst hd
    cases r₁ with
    | error e d' => cases hr₁
    | ok a d' =>
      obtain ⟨rfl, hd'⟩ := EStateM.Result.ok.inj hr₁
      obtain ⟨r₂, ds₂, hwalk₂, hr₂, rfl⟩ := ihf (hends.trans hfirst.symm) hd'
      exact ⟨r₂, ds₁ ++ ds₂, hwalk₁.bind hwalk₂, hr₂, List.map_append.symm⟩
  | bindError _ ihp =>
    obtain ⟨r', ds', hwalk, hr, rfl⟩ := ihp hends hd
    cases r' with
    | ok a d' => cases hr
    | error e d' =>
      obtain ⟨rfl, rfl⟩ := EStateM.Result.error.inj hr
      exact ⟨_, ds', hwalk.bindError, rfl, rfl⟩

end Walks

end Parser

/-! ## Programs -/

theorem Cuts.append_right {ts us : List Token} (h : Cuts ts us) (more : List Token) :
    Cuts (ts ++ more) (us ++ more) := by
  induction h with
  | nil => exact .refl more
  | keep _ ih => exact .keep ih
  | cut ht _ ih => exact .cut ht ih

namespace Cursor

variable {c d : Cursor} {more : List Token} {last : EndToken}

/-- The cursor stands before the token with the index `i` of the list, which is closed, and not
behind the first closing token. -/
structure StandsAt (ts : List Token) (i : Nat) (c : Cursor) : Prop where
  here : ts[i]? = some c.current
  ahead : ts.drop i = c.tokens
  first : i ≤ ts.findIdx (·.kind = .eof)
  closed : ∃ t, ts.getLast? = some t ∧ t.kind = .eof

theorem Reaches.standsAt (h : c.Reaches d) :
    ∃ ts i, Cuts c.tokens ts ∧ d.StandsAt ts i := by
  obtain ⟨passed, hpasses, hkinds⟩ := h
  refine ⟨passed ++ d.tokens, passed.length, ?_, ?_, List.drop_left, ?_, d.last.token, ?_, rfl⟩
  · have hcuts := hpasses.cuts.append_right [c.last.token]
    rw [List.append_assoc] at hcuts
    rw [tokens, tokens, hpasses.last]
    exact hcuts
  · rw [List.getElem?_append_right (Nat.le_refl _), Nat.sub_self]
    obtain ⟨e, rest, last⟩ := d
    cases rest <;> rfl
  · rw [List.findIdx_append]
    have hnone : passed.findIdx (·.kind = .eof) = passed.length :=
      List.findIdx_eq_length.mpr fun t ht => decide_eq_false (hkinds t ht)
    rw [hnone, if_neg (lt_irrefl _)]
    exact Nat.le_add_left _ _
  · rw [tokens, ← List.append_assoc, List.getLast?_concat]

theorem close_append (file : String) (ts : List Token) {us : List Token} (hus : us ≠ []) :
    close file (ts ++ us) = (ts ++ (close file us).1, (close file us).2) := by
  induction ts with
  | nil => rfl
  | cons t ts ih =>
    obtain ⟨u, vs, hvs⟩ := List.exists_cons_of_ne_nil (List.append_ne_nil_of_right_ne_nil ts hus)
    rw [hvs] at ih
    rw [List.cons_append, hvs, close, ih, List.cons_append]

/-- The given tokens are those of the cursor, up to a closing one that may be missing. -/
theorem isPrefix_tokens_ofTokens (ts : List Token) (file : String) :
    ts <+: (ofTokens ts file).tokens := by
  change ts <+: (close file ts).1 ++ [(close file ts).2.token]
  fun_induction close file ts with
  | case1 => exact ⟨_, List.nil_append _⟩
  | case2 t ht =>
    obtain ⟨kind, value, span⟩ := t
    obtain rfl : kind = .eof := ht
    exact List.prefix_rfl
  | case3 t ht => exact List.prefix_append _ _
  | case4 t u ts r ih => exact List.cons_prefix_cons.mpr ⟨rfl, ih⟩

theorem weight_le_resumed : c.weight ≤ (c.resumed more last).weight := by
  obtain ⟨e, rest, l⟩ := c
  induction rest with
  | nil => exact weight_pos _
  | cons t ts ih => exact Nat.add_le_add_left ih _

end Cursor

/-- What a run tells: its result or its fault. -/
def Parser.verdict {α : Type} : EStateM.Result Failure Cursor α → Except Diagnostic α
  | .ok a _ => .ok a
  | .error f c => .error (f.diagnostic c)

theorem Cursor.run_fst {α : Type} (c : Cursor) (p : Nat → Parser α) :
    (c.run p).1 = Parser.verdict (p c.budget c) := by
  unfold Cursor.run
  cases p c.budget c <;> rfl

open Quill.Parser Quill.Parse in
/-- What stands behind the closing token of a cursor does not matter. -/
theorem Cursor.run_resumed (c : Cursor) (more : List Token) (last : EndToken) :
    ((c.resumed more last).run (program .standard)).1 = (c.run (program .standard)).1 := by
  have hbudget : c.weight < c.budget := Nat.lt_succ_self _
  have hlong : c.weight < (c.resumed more last).budget := Nat.lt_succ_of_le weight_le_resumed
  -- the longer list has the larger budget, which does not matter either
  have hdescends := descends_program (c := .twice c) hlong hbudget
  have hweight : (c.resumed more last).weight < (c.resumed more last).budget := Nat.lt_succ_self _
  obtain ⟨ds, hwalk, hends⟩ :=
    (descends_program (c := .twice (c.resumed more last)) hweight hweight).steady
  obtain ⟨r, ds', hwalk', hr, -⟩ := hwalk.resumes hends rfl
  have hspends := hdescends.spends
  rw [run_fst, run_fst, hr, ← hdescends.same Block.eq_of_wholeAlike]
  rw [hwalk'.run] at hspends ⊢
  cases r with
  | ok a d => rfl
  | error f d =>
    obtain ⟨-, _, rfl, -⟩ := hspends
    rfl

/-- A run of `parse`, step by step. -/
def ParseWalks (tokens : List Token) (file : String) (r : EStateM.Result Failure Cursor Block)
    (ds : List Cursor) : Prop :=
  Parser.Walks (Parse.program .standard (Cursor.ofTokens tokens file).budget)
    (Cursor.ofTokens tokens file) r ds

/-- Nothing behind a closing token is looked at: the tokens behind it can be left out, and the
program that is parsed, or the fault that is found, stays the same. Every run can be taken apart
into steps. At each of them the tokens are the given ones, but for a `>>` that has been cut and a
closing token if there was none at the end; they end with a closing one, and the cursor stands
before one of them that is not behind the first closing one. -/
theorem parse_stops :
    (∀ (ts : List Token) (e : Token) (rest : List Token) (file : String), e.kind = .eof →
      parse (ts ++ [e] ++ rest) file = parse (ts ++ [e]) file) ∧
    ∀ (tokens : List Token) (file : String),
      tokens <+: (Cursor.ofTokens tokens file).tokens ∧
      (∃ r ds, ParseWalks tokens file r ds) ∧
      ∀ r ds, ParseWalks tokens file r ds → parse tokens file = Parser.verdict r ∧
        ∀ d ∈ Cursor.ofTokens tokens file :: ds,
          ∃ us i, Cuts (Cursor.ofTokens tokens file).tokens us ∧ d.StandsAt us i := by
  refine ⟨fun ts e rest file he => ?_, fun tokens file => ?_⟩
  · rcases eq_or_ne rest [] with rfl | hrest
    · rw [List.append_nil]
    · have hcursor : Cursor.ofTokens (ts ++ [e] ++ rest) file
          = (Cursor.ofTokens (ts ++ [e]) file).resumed (Cursor.close file rest).1
              (Cursor.close file rest).2 := by
        obtain ⟨kind, value, span⟩ := e
        obtain rfl : kind = .eof := he
        rw [Cursor.ofTokens_append ts rfl, Cursor.ofTokens, Cursor.close_append file _ hrest,
          List.append_assoc]
        rfl
      rw [parse, parse, hcursor, Cursor.run_resumed]
  · have hweight : (Cursor.ofTokens tokens file).weight < (Cursor.ofTokens tokens file).budget :=
      Nat.lt_succ_self _
    obtain ⟨ds, hwalk, hends⟩ :=
      (Parse.descends_program (c := .twice (Cursor.ofTokens tokens file)) hweight hweight).steady
    refine ⟨Cursor.isPrefix_tokens_ofTokens tokens file, ⟨_, ds, hwalk⟩, fun r ds' hwalk' => ?_⟩
    have hrun := hwalk'.run
    refine ⟨?_, List.forall_mem_cons.mpr ⟨(Cursor.Reaches.refl _).standsAt, fun d hd => ?_⟩⟩
    · rw [parse, Cursor.run_fst, hrun]
    · rw [hrun] at hends
      exact ((hwalk'.reaches hends).2 d hd).standsAt

/-- `let a = []<<int>>;` with the shift as one token, then a closing token. -/
def Sample.closing : List Token :=
  [.word .letWord, .identifier, .mark .assign, .mark .openBracket, .mark .closeBracket, .mark .less,
    .mark .less, .identifier, .mark .shiftRight, .mark .semicolon, .eof].map
    fun kind => ⟨kind, "x", ⟨.start "shell", .start "shell"⟩⟩

/-- A name, which is no statement. -/
def Sample.trailing : Token := ⟨.identifier, "y", ⟨.start "shell", .start "shell"⟩⟩

/-- Where the name stands in place of the closing token it is a fault; behind that it is not seen,
and the cursor does not come to it. -/
theorem parse_stops_trailing :
    (parse (Sample.closing.dropLast ++ [Sample.trailing]) "shell").toOption = none ∧
    (parse (Sample.closing ++ [Sample.trailing]) "shell").toOption.isSome ∧
    parse (Sample.closing ++ [Sample.trailing]) "shell" = parse Sample.closing "shell" ∧
    ∃ r ds, ParseWalks (Sample.closing ++ [Sample.trailing]) "shell" r ds ∧
      ∀ d ∈ ds, ∃ us i, Cuts (Sample.closing ++ [Sample.trailing] ++ [⟨.eof, "EOF",
        ⟨.start "shell", .start "shell"⟩⟩]) us ∧ d.StandsAt us i := by
  obtain ⟨hsame, hwalks⟩ := parse_stops
  have hparse := hsame Sample.closing.dropLast ⟨.eof, "x", ⟨.start "shell", .start "shell"⟩⟩
    [Sample.trailing] "shell" rfl
  refine ⟨by decide +kernel, by decide +kernel, hparse, ?_⟩
  obtain ⟨-, ⟨r, ds, hwalk⟩, hsteps⟩ := hwalks (Sample.closing ++ [Sample.trailing]) "shell"
  exact ⟨r, ds, hwalk, fun d hd => (hsteps r ds hwalk).2 d (List.mem_cons_of_mem _ hd)⟩

end Quill
