import Quill.Diagnostic.Excerpt
import Quill.Proofs.Location

/-!
# The caret stands below the culprit

A diagnostic is shown with the line that it points at and a caret on the line below. The two are
made from counts that are kept apart: the number of the line picks one of the lines that the source
is split into, the column is counted in characters and the offset in bytes, the line is shown
without the blanks at both ends, and what stands before it is as wide as the number of the line.

The place of a fault is true to the text, and white space stands there only at the end of it
(`Position.PointsInto`). So the character at the offset is on the line that is shown, it is not cut
off with the blanks, and the caret comes to stand in its column. For this the counts must not wrap
around, and they do not in a text of less than `2 ^ 32` bytes, the end of it apart. That the field
of the caret is no wider than 65535 is asked for as well, although nothing depends on it here: wider
ones need not be possible where texts are padded.

Results:
* `Excerpt.lines_append`, `Excerpt.lines_line`: where a line of a text is found.
* `Excerpt.shown_eq`, `Excerpt.indentWidth_eq`: what is shown of a line with a character in it.
* `Diagnostic.lastLines_caretLines`: the caret below a character of the line.
* **`render_caret`**: the caret of every fault of a text, but those at its end.
* `not_render_caret`: behind `2 ^ 32 - 1` newlines a fault is on line 0, and no line is shown.
-/

namespace Quill

open String (utf8Len)

/-! ## Lines of a text -/

namespace Text

/-- A line starts behind this beginning of a text. -/
def EndsLine (before : List Char) : Prop := before = [] ∨ before.getLast? = some '\n'

/-- A line ends before this rest of a text. -/
def StartsBreak (after : List Char) : Prop := ∀ c ∈ after.head?, c = '\n'

/-- At the offset of the text stands the character `c`; it is part of `line`, which is the line of
that number. -/
def StandsOn (text : List Char) (offset number : Nat) (line : List Char) (c : Char) : Prop :=
  ∃ before front back after, text = before ++ (line ++ after) ∧ EndsLine before ∧
    StartsBreak after ∧ '\n' ∉ line ∧ number = 1 + before.count '\n' ∧
    line = front ++ c :: back ∧ offset = utf8Len (before ++ front)

/-- The text ends with two lines, each with a newline behind it. -/
def LastLines (text upper lower : List Char) : Prop :=
  ∃ before, text = before ++ (upper ++ '\n' :: (lower ++ ['\n'])) ∧ EndsLine before ∧
    '\n' ∉ upper ∧ '\n' ∉ lower

/-- What is left of a line without the spaces and tabs at its start and the white space at its
end. -/
def Trims (line shown : List Char) : Prop :=
  ∃ indent trail, line = indent ++ (shown ++ trail) ∧ (∀ c ∈ indent, c = ' ' ∨ c = '\t') ∧
    (∀ c ∈ shown.head?, c ≠ ' ' ∧ c ≠ '\t') ∧ (∀ c ∈ trail, isBlank c = true) ∧
    ∀ c ∈ shown.getLast?, isBlank c = false

/-- A beginning of a text is made of whole lines and the start of another. -/
theorem exists_front (before : List Char) : ∃ whole front, before = whole ++ front ∧
    EndsLine whole ∧ '\n' ∉ front ∧
      front.length = (before.reverse.takeWhile (· ≠ '\n')).length := by
  have hsplit := List.takeWhile_append_dropWhile (p := (· ≠ '\n')) (l := before.reverse)
  refine ⟨(before.reverse.dropWhile (· ≠ '\n')).reverse,
    (before.reverse.takeWhile (· ≠ '\n')).reverse, ?_, ?_, ?_, List.length_reverse⟩
  · rw [← List.reverse_append, hsplit, List.reverse_reverse]
  · have hnot := List.head?_dropWhile_not (· ≠ '\n') before.reverse
    unfold EndsLine
    rw [List.getLast?_reverse]
    cases h : before.reverse.dropWhile (· ≠ '\n') with
    | nil => exact .inl rfl
    | cons c cs =>
      rw [h] at hnot
      exact .inr (by simpa using hnot)
  · intro hmem
    simpa using List.mem_takeWhile_imp (List.mem_reverse.mp hmem)

theorem EndsLine.append {before more : List Char} (h : EndsLine before) (hmore : EndsLine more) :
    EndsLine (before ++ more) := by
  rcases hmore with rfl | hmore
  · rwa [List.append_nil]
  · refine .inr ?_
    rw [List.getLast?_append, hmore]
    rfl

theorem LastLines.append {before text upper lower : List Char} (hbefore : EndsLine before)
    (h : LastLines text upper lower) : LastLines (before ++ text) upper lower := by
  obtain ⟨more, rfl, hmore, hupper, hlower⟩ := h
  exact ⟨before ++ more, (List.append_assoc _ _ _).symm, hbefore.append hmore, hupper, hlower⟩

theorem trimEnd_append_of_blank {xs ys : List Char} (h : ∀ c ∈ ys, isBlank c = true) :
    trimEnd (xs ++ ys) = trimEnd xs := by
  rw [trimEnd, List.reverse_append,
    List.dropWhile_append_of_pos fun c hc => h c (List.mem_reverse.mp hc)]
  rfl

/-- Nothing is cut before a character that is not white space. -/
theorem trimEnd_append_cons {c : Char} (hc : isBlank c = false) (xs ys : List Char) :
    trimEnd (xs ++ c :: ys) = xs ++ c :: trimEnd ys := by
  have hassoc : (xs ++ c :: ys).reverse = ys.reverse ++ c :: xs.reverse := by simp
  rw [trimEnd, hassoc, List.dropWhile_append]
  split_ifs with h
  · have hnil : ys.reverse.dropWhile isBlank = [] := List.isEmpty_iff.mp h
    simp [trimEnd, hnil, hc]
  · simp [trimEnd]

theorem exists_trimEnd (xs : List Char) :
    ∃ trail, xs = trimEnd xs ++ trail ∧ ∀ c ∈ trail, isBlank c = true := by
  refine ⟨(xs.reverse.takeWhile isBlank).reverse, ?_, fun c hc => ?_⟩
  · rw [trimEnd, ← List.reverse_append, List.takeWhile_append_dropWhile, List.reverse_reverse]
  · exact List.mem_takeWhile_imp (List.mem_reverse.mp hc)

theorem getLast?_trimEnd (xs : List Char) : ∀ c ∈ (trimEnd xs).getLast?, isBlank c = false := by
  intro c hc
  rw [trimEnd, List.getLast?_reverse] at hc
  have hnot := List.head?_dropWhile_not isBlank xs.reverse
  rw [Option.mem_def.mp hc] at hnot
  simpa using hnot

end Text

namespace Excerpt

open Text

variable {before line after front back : List Char} {c : Char}

/-- Behind whole lines, the lines are those of the rest. -/
theorem lines_append (h : EndsLine before) (rest : List Char) :
    lines (before ++ rest) = lines before ++ lines rest ∧
      (lines before).length = before.count '\n' := by
  induction before with
  | nil => exact ⟨rfl, rfl⟩
  | cons c before ih =>
    by_cases hbefore : before = []
    · subst hbefore
      obtain rfl : c = '\n' := by simpa [EndsLine] using h
      exact ⟨rfl, rfl⟩
    · have hlast : EndsLine before := by
        rw [EndsLine, List.getLast?_cons_of_ne_nil hbefore] at h
        exact .inr (h.resolve_left (List.cons_ne_nil _ _))
      obtain ⟨hlines, hlength⟩ := ih hlast
      by_cases hc : c = '\n'
      · subst hc
        simp [lines, hlines, hlength]
      · -- the first line of the rest gets one more character
        obtain ⟨l, ls, hls⟩ : ∃ l ls, lines before = l :: ls := by
          have hpos : 0 < (lines before).length := by
            rw [hlength]
            have hmem : '\n' ∈ before :=
              List.mem_of_getLast? (hlast.resolve_left hbefore)
            exact List.count_pos_iff.mpr hmem
          exact List.exists_cons_of_length_pos hpos
        rw [hls] at hlines hlength
        simp [lines, hc, hlines, hls, ← hlength]

/-- The first line of a text goes up to the first newline. -/
theorem lines_line (hne : line ≠ []) (hline : '\n' ∉ line) (hafter : StartsBreak after) :
    ∃ rest, lines (line ++ after) = (line ++ after.take 1) :: rest := by
  induction line with
  | nil => exact absurd rfl hne
  | cons c line ih =>
    obtain ⟨hc, hline⟩ := List.ne_and_not_mem_of_not_mem_cons hline
    by_cases hnil : line = []
    · subst hnil
      cases after with
      | nil => exact ⟨[], by simp [lines, hc.symm]⟩
      | cons d after =>
        obtain rfl : d = '\n' := hafter d rfl
        exact ⟨lines after, by simp [lines, hc.symm]⟩
    · obtain ⟨rest, hrest⟩ := ih hnil hline
      exact ⟨rest, by simp [lines, hc.symm, hrest]⟩

theorem lineAt?_eq {source : String} {p : Position}
    (hsource : source.toList = before ++ (line ++ after)) (hbefore : EndsLine before)
    (hne : line ≠ []) (hline : '\n' ∉ line) (hafter : StartsBreak after)
    (hp : p.line.toNat = 1 + before.count '\n') :
    lineAt? source p = some (line ++ after.take 1) := by
  obtain ⟨hlines, hlength⟩ := lines_append hbefore (line ++ after)
  obtain ⟨rest, hrest⟩ := lines_line hne hline hafter
  rw [lineAt?, hp, Nat.add_comm, hsource, hlines, hrest, ← hlength]
  simp

theorem isIndent_of_isBlank (hc : isBlank c = false) : isIndent c = false := by
  have hspace : c ≠ ' ' := by
    rintro rfl
    cases hc
  have htab : c ≠ '\t' := by
    rintro rfl
    cases hc
  simp [isIndent, hspace, htab]

/-- What is cut at the start of a line stands before its first character. -/
theorem indentWidth_eq (hc : isBlank c = false) (back : List Char) :
    indentWidth (front ++ c :: back) = (front.takeWhile isIndent).length := by
  rw [indentWidth, List.takeWhile_append]
  split_ifs with h
  · simp [isIndent_of_isBlank hc, h]
  · rfl

/-- What is shown of a line: the character, what stands before it up to the blanks at the start, and
what stands behind it up to the blanks at the end. -/
theorem shown_eq (hc : isBlank c = false) (hafter : StartsBreak after) :
    shown (front ++ c :: back ++ after.take 1) =
      front.dropWhile isIndent ++ c :: trimEnd back := by
  have hbreak : ∀ d ∈ after.take 1, isBlank d = true := by
    cases after with
    | nil => exact List.forall_mem_nil _
    | cons d after =>
      obtain rfl : d = '\n' := hafter d rfl
      exact List.forall_mem_singleton.mpr rfl
  have hassoc : front ++ c :: back ++ after.take 1 = front ++ c :: (back ++ after.take 1) := by simp
  have hdrop : (front ++ c :: (back ++ after.take 1)).dropWhile isIndent =
      front.dropWhile isIndent ++ c :: (back ++ after.take 1) := by
    rw [List.dropWhile_append]
    split_ifs with h
    · have hnil : front.dropWhile isIndent = [] := List.isEmpty_iff.mp h
      simp [hnil, isIndent_of_isBlank hc]
    · rfl
  rw [shown, hassoc, hdrop, trimEnd_append_cons hc, trimEnd_append_of_blank hbreak]

theorem trims_shown (hc : isBlank c = false) :
    Trims (front ++ c :: back) (front.dropWhile isIndent ++ c :: trimEnd back) := by
  obtain ⟨trail, hback, htrail⟩ := exists_trimEnd back
  refine ⟨front.takeWhile isIndent, trail, ?_, fun d hd => ?_, fun d hd => ?_, htrail, ?_⟩
  · rw [List.append_assoc, List.cons_append, ← hback, ← List.append_assoc,
      List.takeWhile_append_dropWhile]
  · simpa [isIndent] using List.mem_takeWhile_imp hd
  · have hindent : isIndent d = false := by
      cases hdrop : front.dropWhile isIndent with
      | nil =>
        rw [hdrop] at hd
        obtain rfl : c = d := by simpa using hd
        exact isIndent_of_isBlank hc
      | cons e es =>
        have hnot := List.head?_dropWhile_not isIndent front
        rw [hdrop] at hnot hd
        obtain rfl : e = d := by simpa using hd
        simpa using hnot
    simpa [isIndent] using hindent
  · intro d hd
    cases hlast : trimEnd back with
    | nil =>
      rw [hlast] at hd
      obtain rfl : c = d := by simpa using hd
      exact hc
    | cons e es =>
      have hne : trimEnd back ≠ [] := hlast ▸ List.cons_ne_nil e es
      rw [List.getLast?_append_of_ne_nil _ (List.cons_ne_nil _ _),
        List.getLast?_cons_of_ne_nil hne] at hd
      exact getLast?_trimEnd back d hd

end Excerpt

/-! ## The two lines -/

namespace Diagnostic

open Excerpt

/-- The line that is shown, behind its number. -/
def textLine (d : Diagnostic) (shown : List Char) : List Char :=
  (toString d.position.line).toList ++ " | ".toList ++ shown

theorem newline_notMem_toString (n : UInt32) : '\n' ∉ (toString n).toList := by
  rw [show toString n = toString n.toNat from rfl, Nat.toString_eq_ofList_toDigits,
    String.toList_ofList]
  intro hmem
  have hdigit := Nat.isDigit_of_mem_toDigits (by decide) (by decide) hmem
  cases hdigit

/-- The two lines come last, behind whole lines. -/
theorem exists_render {d : Diagnostic} {source : String} {line : List Char}
    (h : lineAt? source d.position = some line) :
    ∃ before, Text.EndsLine before ∧ (d.render source).toList = before ++ d.caretLines line := by
  refine ⟨(d.headline ++ "-> " ++ d.position.file ++ "\n").toList, .inr ?_, ?_⟩
  · rw [String.toList_append, List.getLast?_append]
    rfl
  · simp only [render, h, String.toList_append, String.toList_ofList]

variable {d : Diagnostic} {front back after : List Char} {c : Char}

/-- **The caret stands in the column of the character** that as many characters of the line stand
before as the place says. -/
theorem lastLines_caretLines (hc : Text.isBlank c = false) (hafter : Text.StartsBreak after)
    (hline : '\n' ∉ front ++ c :: back) (hcolumn : charsBefore d.position = front.length) :
    ∃ shown marks, Text.Trims (front ++ c :: back) shown ∧
      Text.LastLines (d.caretLines (front ++ c :: back ++ after.take 1)) (d.textLine shown)
        (marks ++ ['^']) ∧ (d.textLine shown)[marks.length]? = some c ∧
      (marks ++ ['^']).length =
        (d.textLine []).length + d.caretWidth (front ++ c :: back ++ after.take 1) := by
  have hindent : indentWidth (front ++ c :: back ++ after.take 1) =
      (front.takeWhile isIndent).length := by
    rw [List.append_assoc, List.cons_append, indentWidth_eq hc]
  have hwidth : charsBefore d.position - indentWidth (front ++ c :: back ++ after.take 1) =
      (front.dropWhile isIndent).length := by
    have hlength :=
      congrArg List.length (List.takeWhile_append_dropWhile (p := isIndent) (l := front))
    rw [List.length_append] at hlength
    omega
  have htrims : Text.Trims (front ++ c :: back)
      (front.dropWhile isIndent ++ c :: Text.trimEnd back) := trims_shown hc
  have hshown : '\n' ∉ front.dropWhile isIndent ++ c :: Text.trimEnd back := by
    obtain ⟨indent, trail, hparts, -⟩ := htrims
    intro hmem
    rw [hparts] at hline
    exact hline (List.mem_append_right _ (List.mem_append_left _ hmem))
  have hnumber := newline_notMem_toString d.position.line
  unfold caretLines textLine caretWidth
  rw [hwidth, shown_eq hc hafter]
  generalize (toString d.position.line).toList = number at hnumber
  refine ⟨_, padLeft ' ' (number.length + 2) ['|'] ++ [' '] ++
    List.replicate (front.dropWhile isIndent).length '-', htrims, ?_, ?_, ?_⟩
  · refine ⟨padLeft ' ' (number.length + 2) ['|'] ++ ['\n'], ?_, .inr (by simp), ?_, ?_⟩
    · simp [padLeft]
    · rw [List.mem_append, List.mem_append]
      simp only [hnumber, hshown, or_false, false_or]
      decide
    · simp [padLeft]
  · -- as much stands before what is shown as before the dashes
    have hbefore : (padLeft ' ' (number.length + 2) ['|'] ++ [' '] ++
        List.replicate (front.dropWhile isIndent).length '-').length =
        (number ++ " | ".toList).length + (front.dropWhile isIndent).length := by
      simp only [padLeft, List.length_append, List.length_replicate, List.length_singleton,
        show " | ".toList.length = 3 from rfl]
      omega
    rw [hbefore, List.getElem?_append_right (Nat.le_add_right _ _), Nat.add_sub_cancel_left]
    simp
  · simp only [padLeft, List.length_append, List.length_replicate, List.length_singleton,
      List.length_nil, show " | ".toList.length = 3 from rfl]
    omega

end Diagnostic

/-! ## Faults of a text -/

/-- A place that stands before what follows it in a text, and not at the end, stands before a
character of a line, and is counted rightly. -/
theorem Position.StandsBefore.standsOn {text : List Char} {file : String} {p : Position}
    (h : p.StandsBefore text file) (hsize : utf8Len text < 2 ^ 32)
    (hend : p.offset.toNat ≠ utf8Len text) :
    ∃ before front back after c, text = before ++ (front ++ c :: back ++ after) ∧
      Text.EndsLine before ∧ Text.StartsBreak after ∧ '\n' ∉ front ++ c :: back ∧
      Text.isBlank c = false ∧ p.line.toNat = 1 + before.count '\n' ∧
      Excerpt.charsBefore p = front.length ∧ p.offset.toNat = utf8Len (before ++ front) := by
  obtain ⟨done, rest, rfl, rfl, hstops⟩ := h
  cases rest with
  | nil =>
    rw [List.append_nil] at hsize hend
    exact absurd (toNat_ofNat_of_lt hsize) hend
  | cons c rest =>
    have hcounts : (behind file done).Counts file done := by
      have hpos := c.utf8Size_pos
      rw [String.utf8Len_append, String.utf8Len_cons] at hsize
      exact counts_behind (by omega)
    have hc : Text.isBlank c = false := hstops c rfl
    have hbreak : '\n' ≠ c := by
      rintro rfl
      cases hc
    obtain ⟨before, front, rfl, hbefore, hfront, hlength⟩ := Text.exists_front done
    refine ⟨before, front, rest.takeWhile (· ≠ '\n'), rest.dropWhile (· ≠ '\n'), c, ?_, hbefore, ?_,
      ?_, hc, ?_, ?_, hcounts.offset⟩
    · simp [List.takeWhile_append_dropWhile]
    · intro d hd
      have hnot := List.head?_dropWhile_not (· ≠ '\n') rest
      rw [Option.mem_def.mp hd] at hnot
      simpa using hnot
    · intro hmem
      rcases List.mem_append.mp hmem with hmem | hmem
      · exact hfront hmem
      · rcases List.mem_cons.mp hmem with hmem | hmem
        · exact hbreak hmem
        · simpa using List.mem_takeWhile_imp hmem
    · rw [hcounts.line, List.count_append, List.count_eq_zero_of_not_mem hfront]
      rfl
    · rw [Excerpt.charsBefore, hcounts.column, hlength]
      exact Nat.add_sub_cancel_left _ _

/-- **The caret points at the culprit.** A fault that is not at the end of the text is shown with
its line, without the blanks at the ends, behind the number of the line; and the caret on the line
below stands in the column of the character that the text has at the place of the fault. -/
theorem render_caret (lib : Library) {source file : String} {d : Diagnostic}
    (hsize : source.utf8ByteSize < 2 ^ 32) (h : checkSource lib source file = .error d)
    (hend : d.position.offset.toNat ≠ source.utf8ByteSize)
    (hwidth : ∀ line, Excerpt.lineAt? source d.position = some line →
      d.caretWidth line ≤ 65535) :
    ∃ line shown marks c,
      Text.StandsOn source.toList d.position.offset.toNat d.position.line.toNat line c ∧
      Text.Trims line shown ∧
      Text.LastLines (d.render source).toList (d.textLine shown) (marks ++ ['^']) ∧
      (d.textLine shown)[marks.length]? = some c ∧
      (marks ++ ['^']).length ≤ (d.textLine []).length + 65535 := by
  rw [← utf8Len_toList] at hsize hend
  obtain ⟨before, front, back, after, c, htext, hbefore, hafter, hline, hc, hnumber, hcolumn,
    hoffset⟩ := (standsBefore_of_checkSource h).standsOn hsize hend
  obtain ⟨shown, marks, htrims, hlines, hcaret, hlength⟩ :=
    Diagnostic.lastLines_caretLines (d := d) hc hafter hline hcolumn
  have hfound := Excerpt.lineAt?_eq htext hbefore (by simp) hline hafter hnumber
  obtain ⟨head, hhead, hrender⟩ := Diagnostic.exists_render hfound
  refine ⟨front ++ c :: back, shown, marks, c, ?_, htrims, ?_, hcaret, ?_⟩
  · exact ⟨before, front, back, after, htext, hbefore, hafter, hline, hnumber, rfl, hoffset⟩
  · rw [hrender]
    exact hlines.append hhead
  · rw [hlength]
    exact Nat.add_le_add_left (hwidth _ hfound) _

namespace Sample

/-- A text with a fault on its second line, which is indented and has a letter of two bytes before
the fault. -/
def indented : String := "\n\t let s = \"ä\" + y;"

/-- The fault. -/
def indentedFault : Diagnostic := ⟨.undeclared "y", ⟨18, 2, 17, "f"⟩⟩

/-- Newlines. -/
def breaks (n : Nat) : List Char := List.replicate n '\n'

theorem isBlank_of_mem_breaks {n : Nat} : ∀ c ∈ breaks n, Text.isBlank c = true := by
  intro c hc
  rw [(List.mem_replicate.mp hc).2]
  rfl

theorem utf8Len_breaks (n : Nat) : utf8Len (breaks n) = n := by
  induction n with
  | zero => rfl
  | succ n ih =>
    rw [breaks, List.replicate_succ, String.utf8Len_cons, ← breaks, ih]
    rfl

theorem after_breaks (n : Nat) :
    (Position.start "f").after (breaks n) = ⟨.ofNat n, .ofNat (1 + n), 1, "f"⟩ := by
  rw [Position.after_start, Position.behind, utf8Len_breaks]
  cases n with
  | zero => rfl
  | succ n => simp [breaks, List.replicate_succ']

end Sample

theorem render_caret_indented :
    checkSource .empty Sample.indented "f" = .error Sample.indentedFault ∧
      Sample.indentedFault.position.offset.toNat ≠ Sample.indented.utf8ByteSize ∧
      ∃ line shown marks c,
        Text.StandsOn Sample.indented.toList 18 2 line c ∧ Text.Trims line shown ∧
        Text.LastLines (Sample.indentedFault.render Sample.indented).toList
          (Sample.indentedFault.textLine shown) (marks ++ ['^']) ∧
        (Sample.indentedFault.textLine shown)[marks.length]? = some c := by
  have hcheck : checkSource .empty Sample.indented "f" = .error Sample.indentedFault :=
    eq_error_of_map (f := fun _ => ()) (by decide +kernel)
  have hend : Sample.indentedFault.position.offset.toNat ≠ Sample.indented.utf8ByteSize := by
    decide +kernel
  have hline : Excerpt.lineAt? Sample.indented Sample.indentedFault.position =
      some "\t let s = \"ä\" + y;".toList := by decide +kernel
  obtain ⟨line, shown, marks, c, hstands, htrims, hlines, hcaret, -⟩ :=
    render_caret .empty (by decide) hcheck hend fun line hfound => by
      cases hline.symm.trans hfound
      decide +kernel
  exact ⟨hcheck, hend, line, shown, marks, c, hstands, htrims, hlines, hcaret⟩

/-- A fault behind `2 ^ 32 - 1` newlines is shown without a line, since its own has the number 0. -/
theorem not_render_caret : ∃ (source : String) (d : Diagnostic),
    checkSource .empty source "f" = .error d ∧
      d.position.offset.toNat ≠ source.utf8ByteSize ∧ Excerpt.lineAt? source d.position = none ∧
      d.render source = d.headline ++ "-> f\n" := by
  have hplace : (Position.start "f").after (Sample.breaks (2 ^ 32 - 1)) = ⟨4294967295, 0, 1, "f"⟩ :=
    Sample.after_breaks _
  refine ⟨String.ofList (Sample.breaks (2 ^ 32 - 1) ++ "y();".toList),
    ⟨.undeclared "y", ⟨4294967295, 0, 1, "f"⟩⟩, ?_, ?_, rfl, rfl⟩
  · have htokens : tokenize (String.ofList (Sample.breaks (2 ^ 32 - 1) ++ "y();".toList)) "f" =
        Reader.tokens ⟨"y();".toList, ⟨4294967295, 0, 1, "f"⟩⟩ := by
      rw [tokenize, Reader.ofText, String.toList_ofList,
        Reader.tokens_blanks Sample.isBlank_of_mem_breaks, hplace]
    rw [checkSource, parseSource, htokens]
    exact eq_error_of_map (f := fun _ => ()) (by decide +kernel)
  · rw [String.utf8ByteSize_ofList, String.utf8Len_append, Sample.utf8Len_breaks]
    decide

end Quill
