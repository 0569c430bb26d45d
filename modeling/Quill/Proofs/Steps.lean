import Quill.Proofs.Alike

/-!
# Steps of a parser

A run of a parser is taken apart into its steps, `Walks p c r ds`: a step looks at the current token
or at the end of the last one passed, passes a token, or cuts a `>>` in two. Nothing else is looked
at, and `ds` are the cursors that the run comes to. What every step keeps, every run keeps, by
induction on the steps; no parser has to be opened for that.

Results:
* `Walks.run`: the steps are those of the parser.
* `Walks.endsAhead_le`: no step adds to the closing tokens ahead.
* **`Walks.run_before`**: a run that leaves a token is the same where more tokens follow.
-/

namespace Quill

open Syntax

/-! ## Cursors -/

namespace Cursor

variable {c : Cursor} {more : List Token} {last : EndToken}

theorem weight_pos (c : Cursor) : 0 < c.weight := by
  obtain ⟨e, rest, last⟩ := c
  cases rest with
  | nil => exact Nat.one_pos
  | cons t ts =>
    change 0 < tokenWeight t + weight ⟨e, ts, last⟩
    unfold tokenWeight
    split_ifs <;> omega

/-- Passing a token takes from the weight. -/
theorem weight_advance_lt (h : c.kind ≠ .eof) : c.advance.weight < c.weight := by
  obtain ⟨e, rest, last⟩ := c
  cases rest with
  | nil => exact absurd rfl h
  | cons t ts =>
    change weight ⟨t.span.stop, ts, last⟩ < tokenWeight t + weight ⟨t.span.stop, ts, last⟩
    unfold tokenWeight
    split_ifs <;> omega

/-- The closing token stays. -/
theorem weight_advance_le (c : Cursor) : c.advance.weight ≤ c.weight := by
  obtain ⟨e, rest, last⟩ := c
  cases rest with
  | nil => exact Nat.le_refl _
  | cons t ts => exact Nat.le_add_left _ (tokenWeight t)

/-- Two halves count as much as the whole. -/
theorem weight_splitShift (c : Cursor) : c.splitShift.weight = c.weight := by
  obtain ⟨e, rest, last⟩ := c
  unfold splitShift
  split
  · rename_i value start stop ts heq
    obtain rfl : rest = _ := heq
    change 1 + (1 + weight ⟨e, ts, last⟩) = 2 + weight ⟨e, ts, last⟩
    omega
  · rfl

/-- The cursor with more tokens behind its own, and another closing one. -/
def before (c : Cursor) (more : List Token) (last : EndToken) : Cursor :=
  ⟨c.previousEnd, c.rest ++ more, last⟩

/-- A token is left. -/
def Open (c : Cursor) : Prop := c.rest ≠ []

theorem open_of_kind (h : c.kind ≠ .eof) : c.Open := by
  unfold Open
  rw [rest_eq_cons h]
  exact List.cons_ne_nil _ _

theorem before_current (h : c.Open) : (c.before more last).current = c.current := by
  obtain ⟨t, ts, hrest⟩ := List.exists_cons_of_ne_nil h
  simp [before, current, hrest]

theorem before_kind (h : c.Open) : (c.before more last).kind = c.kind :=
  congrArg Token.kind (before_current h)

theorem before_advance (h : c.Open) :
    (c.before more last).advance = c.advance.before more last := by
  obtain ⟨t, ts, hrest⟩ := List.exists_cons_of_ne_nil h
  simp [before, advance, hrest]

theorem open_of_advance (h : c.advance.Open) : c.Open := by
  intro hrest
  unfold Open advance at h
  rw [hrest] at h
  exact h hrest

theorem before_splitShift (h : c.Open) :
    (c.before more last).splitShift = c.splitShift.before more last := by
  obtain ⟨e, rest, l⟩ := c
  obtain ⟨t, ts, hrest⟩ := List.exists_cons_of_ne_nil h
  obtain rfl : rest = t :: ts := hrest
  obtain ⟨kind, value, start, stop⟩ := t
  by_cases hkind : kind = .mark .shiftRight
  · subst hkind
    rfl
  · have hshort : (Cursor.mk e (⟨kind, value, ⟨start, stop⟩⟩ :: ts) l).kind ≠ .mark .shiftRight :=
      hkind
    have hlong : (Cursor.before _ more last).kind ≠ .mark .shiftRight :=
      (before_kind h).trans_ne hshort
    rw [splitShift_of_kind hshort, splitShift_of_kind hlong]

theorem open_of_splitShift (h : c.splitShift.Open) : c.Open := by
  rcases c.splitShift_cases with heq | ⟨t, _, _, ts, hrest, -⟩
  · rwa [heq] at h
  · unfold Open
    rw [hrest]
    exact List.cons_ne_nil _ _

/-- A cursor at the end has the least weight. -/
theorem open_of_weight (h : 1 < c.weight) : c.Open := by
  intro hrest
  rw [weight, hrest] at h
  exact absurd h (by decide)

/-- The number of closing tokens before the last one. -/
def endsAhead (c : Cursor) : Nat := c.rest.countP (·.kind = .eof)

theorem endsAhead_advance_le (c : Cursor) : c.advance.endsAhead ≤ c.endsAhead := by
  obtain ⟨e, rest, last⟩ := c
  cases rest with
  | nil => exact Nat.le_refl _
  | cons t ts => exact (List.sublist_cons_self t ts).countP_le

theorem endsAhead_advance (h : c.kind ≠ .eof) : c.advance.endsAhead = c.endsAhead := by
  obtain ⟨e, rest, last⟩ := c
  cases rest with
  | nil => rfl
  | cons t ts =>
    have ht : t.kind ≠ .eof := h
    simp [endsAhead, advance, ht]

/-- Passing a closing token takes it away, unless it is the last. -/
theorem kind_ne_eof_of_endsAhead_advance (hopen : c.Open)
    (h : c.advance.endsAhead = c.endsAhead) : c.kind ≠ .eof := by
  obtain ⟨e, rest, last⟩ := c
  obtain ⟨t, ts, hrest⟩ := List.exists_cons_of_ne_nil hopen
  obtain rfl : rest = t :: ts := hrest
  intro ht
  have ht : t.kind = .eof := ht
  simp [endsAhead, advance, ht] at h

theorem endsAhead_splitShift (c : Cursor) : c.splitShift.endsAhead = c.endsAhead := by
  unfold splitShift
  split
  · rename_i hrest
    simp [endsAhead, hrest]
  · rfl

end Cursor

/-! ## Runs -/

namespace Parser

variable {α β : Type} {more : List Token} {last : EndToken}

theorem bind_of_ok {p : Parser α} {f : α → Parser β} {c c' : Cursor} {a : α}
    (h : p c = .ok a c') : (p >>= f) c = f a c' := by
  change EStateM.bind p f c = f a c'
  unfold EStateM.bind
  rw [h]

theorem peekKind_ok (c : Cursor) : peekKind c = .ok c.kind c := rfl

theorem splitShift_ok (c : Cursor) : splitShift c = .ok () c.splitShift := rfl

theorem spanFrom_ok (start : Position) (c : Cursor) :
    spanFrom start c = .ok ⟨start, c.previousEnd⟩ c := rfl

theorem bind_of_error {p : Parser α} {f : α → Parser β} {c c' : Cursor} {e : Failure}
    (h : p c = .error e c') : (p >>= f) c = .error e c' := by
  change EStateM.bind p f c = _
  rw [EStateM.bind, h]

/-- The closing token has no place in any table. -/
theorem kind_ne_eof_of_some {f : TokenKind → Option α} {kind : TokenKind} {a : α}
    (h : f kind = some a) (hf : f .eof = none) : kind ≠ .eof := by
  rintro rfl
  rw [hf] at h
  cases h

theorem expect_of_kind {kind : TokenKind} {c : Cursor} (h : c.kind = kind) :
    expect kind c = .ok c.current c.advance := by
  change (if c.kind = kind then advance else unexpected) c = _
  rw [if_pos h]
  rfl

theorem accept_of_kind {kind : TokenKind} {c : Cursor} (h : c.kind = kind) :
    accept kind c = .ok true c.advance := by
  change (if c.kind = kind then advance >>= fun _ => pure true else pure false : Parser Bool) c = _
  rw [if_pos h]
  rfl

theorem accept_of_kind_ne {kind : TokenKind} {c : Cursor} (h : c.kind ≠ kind) :
    accept kind c = .ok false c := by
  change (if c.kind = kind then advance >>= fun _ => pure true else pure false : Parser Bool) c = _
  rw [if_neg h]
  rfl

/-! ## Steps -/

/-- The cursor that a run leaves. -/
def left : EStateM.Result Failure Cursor α → Cursor
  | .ok _ c => c
  | .error _ c => c

/-- The result of a run with its cursor changed. -/
def moved (f : Cursor → Cursor) :
    EStateM.Result Failure Cursor α → EStateM.Result Failure Cursor α
  | .ok a c => .ok a (f c)
  | .error e c => .error e (f c)

/-- A run of the parser, step by step: from the cursor `c` it comes to the result `r`, and it moves
to the cursors `ds` on its way. -/
inductive Walks : {α : Type} → Parser α → Cursor → EStateM.Result Failure Cursor α →
    List Cursor → Prop
  | pure {α : Type} (a : α) (c : Cursor) : Walks (Pure.pure a) c (.ok a c) []
  | throw {α : Type} (e : Failure) (c : Cursor) :
      Walks (MonadExcept.throw e : Parser α) c (.error e c) []
  | peek (c : Cursor) : Walks Parser.peek c (.ok c.current c) []
  | spanFrom (start : Position) (c : Cursor) :
      Walks (Parser.spanFrom start) c (.ok ⟨start, c.previousEnd⟩ c) []
  | advance (c : Cursor) : Walks Parser.advance c (.ok c.current c.advance) [c.advance]
  | splitShift (c : Cursor) : Walks Parser.splitShift c (.ok () c.splitShift) [c.splitShift]
  | bind {α β : Type} {p : Parser α} {f : α → Parser β} {c c' : Cursor} {a : α}
      {r : EStateM.Result Failure Cursor β} {ds es : List Cursor} (hp : Walks p c (.ok a c') ds)
      (hf : Walks (f a) c' r es) : Walks (p >>= f) c r (ds ++ es)
  | bindError {α β : Type} {p : Parser α} {f : α → Parser β} {c c' : Cursor} {e : Failure}
      {ds : List Cursor} (hp : Walks p c (.error e c') ds) : Walks (p >>= f) c (.error e c') ds

namespace Walks

variable {p : Parser α} {c : Cursor} {r : EStateM.Result Failure Cursor α} {ds : List Cursor}

/-- The steps are those of the parser. -/
theorem run (h : Walks p c r ds) : p c = r := by
  induction h with
  | pure | throw | peek | spanFrom | advance | splitShift => rfl
  | bind _ _ ihp ihf => rw [bind_of_ok ihp, ihf]
  | bindError _ ihp => exact bind_of_error ihp

theorem endsAhead_le (h : Walks p c r ds) : (left r).endsAhead ≤ c.endsAhead := by
  induction h with
  | pure | throw | peek | spanFrom => exact Nat.le_refl _
  | advance c => exact c.endsAhead_advance_le
  | splitShift c => exact c.endsAhead_splitShift.le
  | bind _ _ ihp ihf => exact ihf.trans ihp
  | bindError _ ihp => exact ihp

/-- The closing tokens ahead never grow in number. So if as many are left behind two runs, none has
been passed in the first. -/
theorem endsAhead_eq {f : α → Parser β} {c' : Cursor} {a : α} {s : EStateM.Result Failure Cursor β}
    {es : List Cursor} (hp : Walks p c (.ok a c') ds) (hf : Walks (f a) c' s es)
    (h : (left s).endsAhead = c.endsAhead) : c'.endsAhead = c.endsAhead :=
  Nat.le_antisymm hp.endsAhead_le (h.symm.le.trans hf.endsAhead_le)

theorem open_of_left (h : Walks p c r ds) (hopen : (left r).Open) : c.Open := by
  induction h with
  | pure | throw | peek | spanFrom => exact hopen
  | advance => exact Cursor.open_of_advance hopen
  | splitShift => exact Cursor.open_of_splitShift hopen
  | bind _ _ ihp ihf => exact ihp (ihf hopen)
  | bindError _ ihp => exact ihp hopen

/-- A run that does not come to the end of the tokens is the same where more of them follow. -/
theorem run_before (h : Walks p c r ds) (hopen : (left r).Open) :
    p (c.before more last) = moved (·.before more last) r := by
  induction h with
  | pure | throw | spanFrom => rfl
  | peek c =>
    change EStateM.Result.ok (c.before more last).current _ = _
    rw [Cursor.before_current (c := c) hopen]
    rfl
  | advance c =>
    have hc := Cursor.open_of_advance hopen
    change EStateM.Result.ok (c.before more last).current (c.before more last).advance = _
    rw [Cursor.before_current hc, Cursor.before_advance hc]
    rfl
  | splitShift c =>
    change EStateM.Result.ok () (c.before more last).splitShift = _
    rw [Cursor.before_splitShift (Cursor.open_of_splitShift hopen)]
    rfl
  | bind _ hf ihp ihf =>
    have hp := ihp (hf.open_of_left hopen)
    rw [bind_of_ok hp, ihf hopen]
  | bindError _ ihp => exact bind_of_error (ihp hopen)

end Walks

end Parser

end Quill
