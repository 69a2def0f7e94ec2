import ListingEditor.Proofs.Buffer.Measure
import ListingEditor.Proofs.Indent.Newline

/-!
What the return key makes of a line without the rules of listings. The line is broken at the caret, and the new line
is indented like the nearest line above it that is not blank.
-/

namespace ListingEditor

open Buffer (Uniform leading)
open Text (AllBlank SplitsBreak isBlank)

namespace Buffer

variable {b : Buffer} {ending : List Char} {front rear : List (List Char)} {line before after blanks : List Char}

theorem Uniform.indentation_eq (huniform : b.Uniform ending (front ++ line :: rear)) :
    b.indentation front.length = columnBehind b.tabWidth (line.takeWhile isBlank) := by
  have hinside : front.length < b.lineCount := by
    rw [huniform.lineCount_eq, List.length_append, List.length_cons]
    omega
  exact indentation_of_lineText hinside huniform.lineText_eq

/-- A caret that is not inside a pair of returns parts its line in two. -/
theorem Uniform.exists_caret {lines : List (List Char)} (huniform : b.Uniform ending lines)
    (hcaret : 0 ≤ b.caret ∧ b.caret ≤ b.text.length)
    (hwhole : ¬ SplitsBreak (b.text.take b.caret.toNat) (b.text.drop b.caret.toNat)) :
    ∃ front before after rear, lines = front ++ (before ++ after) :: rear ∧ b.currentLine = front.length ∧
      b.caret = (leading ending front ++ before).length := by
  obtain ⟨caret, hplace⟩ := Int.eq_ofNat_of_zero_le hcaret.1
  rw [hplace, Int.toNat_natCast] at hwhole
  obtain ⟨front, line, rear, offset, rfl, hoffset, hcolumn⟩ := huniform.exists_column (by omega) hwhole
  refine ⟨front, line.take offset, line.drop offset, rear, by rw [List.take_append_drop], ?_, ?_⟩
  · rw [currentLine, hplace, hcolumn]
    exact huniform.lineOf_column hoffset
  · rw [hplace, hcolumn, List.length_append, List.length_take_of_le hoffset]

/-- Where a line starts that has no indentation in front of the caret. -/
theorem Rests.lineStart_next (hrests : b.Rests ending (front ++ [before]) [] after rear) :
    ∃ place : Nat, b.lineStart (front.length + 1) = .ok place ∧ b.caret = place ∧ b.anchor = place := by
  have hstart := hrests.uniform.lineStart_eq
  rw [List.length_append, List.length_singleton, Int.natCast_add] at hstart
  have hcaret := hrests.caret
  rw [List.append_nil] at hcaret
  exact ⟨_, hstart, hcaret, hrests.anchor.trans hcaret⟩

/-- Where the indentation of a line ends that has all of it in front of the caret. -/
theorem Rests.indentEnd_next (hrests : b.Rests ending (front ++ [before]) blanks (after.dropWhile isBlank) rear)
    (hblank : AllBlank blanks) :
    ∃ place : Nat, b.indentEnd (front.length + 1) = .ok place ∧ b.caret = place ∧ b.anchor = place := by
  have hend := hrests.uniform.indentEnd_eq
  rw [Text.takeWhile_append_dropWhile_isBlank hblank, List.length_append, List.length_singleton,
    ← List.length_append, Int.natCast_add] at hend
  exact ⟨_, hend, hrests.caret, hrests.anchor.trans hrests.caret⟩

end Buffer

namespace Indenter

/-- The line whose indentation a line behind the given ones follows: the last of them that is not blank, or else the
first. The lines that are passed over are blank. -/
structure Follows (lines above : List (List Char)) (guide : List Char) (passed : List (List Char)) : Prop where
  parts : lines = above ++ guide :: passed
  filled : above = [] ∨ ¬ AllBlank guide
  blank : ∀ line ∈ passed, AllBlank line

theorem exists_follows (front : List (List Char)) (line : List Char) :
    ∃ above guide passed, Follows (front ++ [line]) above guide passed := by
  induction front using List.reverseRecOn generalizing line with
  | nil => exact ⟨[], line, [], rfl, .inl rfl, nofun⟩
  | append_singleton front last ih =>
    by_cases hblank : AllBlank line
    · obtain ⟨above, guide, passed, hparts, hfilled, hpassed⟩ := ih last
      refine ⟨above, guide, passed ++ [line], by rw [hparts, List.append_assoc, List.cons_append], hfilled, ?_⟩
      exact List.forall_mem_append.mpr ⟨hpassed, List.forall_mem_singleton.mpr hblank⟩
    · exact ⟨front ++ [last], line, [], rfl, .inr hblank, nofun⟩

section

variable {b : Buffer} {ending : List Char} {front above passed rear : List (List Char)} {line guide : List Char}

theorem isBlankLine_iff (huniform : b.Uniform ending (front ++ line :: rear)) :
    isBlankLine b front.length = true ↔ AllBlank line := by
  have hlength : (line.takeWhile isBlank).length = line.length ↔ AllBlank line := by
    rw [AllBlank, ← List.takeWhile_eq_self_iff]
    exact ⟨(line.takeWhile_prefix isBlank).eq_of_length, congrArg List.length⟩
  rw [isBlankLine, huniform.indentEnd_eq, huniform.lineEnd_eq]
  dsimp only
  rw [beq_iff_eq, Nat.add_left_cancel_iff, hlength]

/-- The search for a line to follow goes up over the blank lines. -/
theorem filledLine_of_follows (huniform : b.Uniform ending (above ++ guide :: passed ++ rear))
    (hfilled : above = [] ∨ ¬ AllBlank guide) (hblank : ∀ line ∈ passed, AllBlank line) :
    filledLine b (above.length + passed.length) = above.length := by
  induction passed using List.reverseRecOn generalizing rear with
  | nil =>
    rw [List.append_assoc, List.cons_append, List.nil_append] at huniform
    cases hlength : above.length with
    | zero => rfl
    | succ n =>
      have hblankLine : ¬ isBlankLine b (n + 1 : Nat) = true := by
        rw [← hlength, isBlankLine_iff huniform]
        refine hfilled.resolve_left fun hnone => ?_
        rw [hnone] at hlength
        cases hlength
      rw [List.length_nil, Nat.add_zero, filledLine, if_neg hblankLine]
  | append_singleton passed line ih =>
    obtain ⟨hpassed, hline⟩ := List.forall_mem_append.mp hblank
    have hparts : above ++ guide :: (passed ++ [line]) ++ rear = (above ++ guide :: passed) ++ line :: rear := by
      simp only [List.append_assoc, List.cons_append, List.nil_append]
    rw [hparts] at huniform
    have hblankLine := (isBlankLine_iff huniform).mpr (hline line (List.mem_singleton_self line))
    have hlength : (above ++ guide :: passed).length = above.length + passed.length + 1 := by
      rw [List.length_append, List.length_cons, Nat.add_assoc]
    rw [hlength] at hblankLine
    rw [List.length_append, List.length_singleton, ← Nat.add_assoc, filledLine, if_pos hblankLine]
    exact ih huniform hpassed

theorem findColumn_plain {line : Nat} (hpositive : 0 < line) :
    findColumn .plain b line = (b.indentation (filledLine b (line - 1))).map some := by
  obtain ⟨above, rfl⟩ : ∃ above, line = above + 1 := ⟨line - 1, by omega⟩
  have habove : ((above + 1 : Nat) : Int) - 1 = above := by omega
  rw [findColumn, columnFromAbove, if_neg (by omega), habove, Nat.add_sub_cancel]
  dsimp only
  cases above with
  | zero => rfl
  | succ above => rw [if_pos (by omega), Int.toNat_natCast]

theorem indentation_of_follows {lines : List (List Char)} (hfollows : Follows lines above guide passed)
    (huniform : b.Uniform ending (lines ++ rear)) :
    b.indentation above.length = Buffer.columnBehind b.tabWidth (guide.takeWhile isBlank) := by
  rw [hfollows.parts, List.append_assoc, List.cons_append] at huniform
  exact huniform.indentation_eq

/-- A line behind others is indented like the line that it follows. -/
theorem findColumn_of_follows {lines : List (List Char)} (hfollows : Follows lines above guide passed)
    (huniform : b.Uniform ending (lines ++ rear)) {column : Int}
    (hcolumn : Buffer.columnBehind b.tabWidth (guide.takeWhile isBlank) = .ok column) :
    findColumn .plain b lines.length = .ok (some column) := by
  have hindent := indentation_of_follows hfollows huniform
  obtain ⟨rfl, hfilled, hblank⟩ := hfollows
  have hlength : (above ++ guide :: passed).length = above.length + passed.length + 1 := by
    rw [List.length_append, List.length_cons, Nat.add_assoc]
  rw [findColumn_plain (by omega), hlength, Nat.add_sub_cancel, filledLine_of_follows huniform hfilled hblank, hindent,
    hcolumn]
  rfl

end

theorem breakLine_plain_effect {b last : Buffer} {result : Except EditError Unit}
    (hstart : (startLine .plain b.newline).effect b.beginUndo = (result, last)) :
    (breakLine .plain).effect b = (result, last.endUndo) := by
  have hbreak : breakLine .plain = (do
      let newline ← Step.look (·.newline)
      Command.grouped (startLine .plain newline)) := rfl
  rw [hbreak, Step.effect_bind_look]
  exact Command.grouped_effect hstart

/-- Without the rules of listings the return key breaks the caret's line in two and leaves the first of the two as it
is. The second gets the indentation of the line that it follows in place of its own, and the caret comes to stand behind
it. All other lines stay as they are. If no blanks reach the indentation, the line has been broken already, and the
caret stands at the start of the second line. -/
theorem breakLine_follows {b : Buffer} {lines : List (List Char)} (huniform : b.Uniform b.newline lines) {width : Int}
    (hwidth : b.tabWidth = some width) (hpositive : 1 ≤ width) (hcaret : 0 ≤ b.caret ∧ b.caret ≤ b.text.length)
    (hwhole : ¬ SplitsBreak (b.text.take b.caret.toNat) (b.text.drop b.caret.toNat)) :
    ∃ (front rear above passed : List (List Char)) (before after guide : List Char) (start : Nat) (column : Int),
      lines = front ++ (before ++ after) :: rear ∧ b.currentLine = front.length ∧
      b.lineStart front.length = .ok start ∧ b.caret = (start + before.length : Nat) ∧
      Follows (front ++ [before]) above guide passed ∧
      let outcome := (breakLine .plain).run b
      outcome.state.indentation above.length = .ok column ∧
      match b.indentString column with
      | .error e =>
        outcome.result = .error e ∧ outcome.state.Uniform b.newline (front ++ [before, after] ++ rear) ∧
          ∃ place : Nat, outcome.state.lineStart (front.length + 1) = .ok place ∧
            outcome.state.caret = place ∧ outcome.state.anchor = place
      | .ok blanks =>
        outcome.result = .ok () ∧
          outcome.state.Uniform b.newline (front ++ [before, blanks ++ after.dropWhile isBlank] ++ rear) ∧
          ∃ place : Nat, outcome.state.indentEnd (front.length + 1) = .ok place ∧
            outcome.state.caret = place ∧ outcome.state.anchor = place := by
  obtain ⟨front, before, after, rear, rfl, hcurrent, hplace⟩ := huniform.exists_caret hcaret hwhole
  obtain ⟨above, guide, passed, hfollows⟩ := exists_follows front before
  obtain ⟨column, hcolumn, -⟩ := Buffer.columnBehind_grows hpositive (guide.takeWhile isBlank)
  refine ⟨front, rear, above, passed, before, after, guide, _, column, rfl, hcurrent, huniform.lineStart_eq,
    hplace.trans (congrArg _ List.length_append), hfollows, ?_⟩
  intro outcome
  have hopened : b.beginUndo.Uniform b.newline (front ++ (before ++ after) :: rear) := huniform.of_text rfl
  have htab {b' : Buffer} (hlayout : b'.layout = b.layout) :
      Buffer.columnBehind b'.tabWidth (guide.takeWhile isBlank) = .ok column := by
    rw [(Buffer.layout_eq_iff.mp hlayout).1, hwidth, hcolumn]
  have hfind (b' : Buffer) (hbroken : b'.Uniform b.newline (front ++ [before] ++ after :: rear))
      (hlayout : b'.layout = b.layout) : findColumn .plain b' (front ++ [before]).length = .ok (some column) :=
    findColumn_of_follows hfollows hbroken (htab hlayout)
  -- whether the new line gets its indentation or not, the lines up to the caret are those of the guide
  have hguide {last : Buffer} {next : List Char} (hbroken : last.Uniform b.newline (front ++ [before] ++ next :: rear))
      (hlayout : last.layout = b.layout) : last.endUndo.indentation above.length = .ok column :=
    (indentation_of_follows hfollows (hbroken.of_text rfl)).trans (htab hlayout)
  have hlines (next : List Char) : front ++ [before, next] ++ rear = front ++ [before] ++ next :: rear := by simp
  cases hblanks : b.indentString column with
  | error e =>
    obtain ⟨last, hstart, hrests, hlayout⟩ := startLine_fails hopened hplace hfind hblanks
    obtain ⟨hresult, hstate⟩ := Prod.mk.inj (breakLine_plain_effect hstart)
    have hfinal : outcome.state = last.endUndo := hstate
    have hbroken : last.Uniform b.newline (front ++ [before] ++ after :: rear) := hrests.uniform
    dsimp only
    rw [hlines, hfinal]
    exact ⟨hguide hbroken hlayout, hresult, hbroken.of_text rfl, hrests.lineStart_next⟩
  | ok blanks =>
    obtain ⟨last, hstart, hrests, hlayout⟩ := startLine_indents hopened hplace hfind hblanks
    obtain ⟨hresult, hstate⟩ := Prod.mk.inj (breakLine_plain_effect hstart)
    have hfinal : outcome.state = last.endUndo := hstate
    dsimp only
    rw [hlines, hfinal]
    exact ⟨hguide hrests.uniform hlayout, hresult, hrests.uniform.of_text rfl,
      hrests.indentEnd_next (Buffer.indentString_blank hblanks).1⟩

/-- Two lines with text and an empty one between them, with the caret in the indentation of the last. -/
def blankBetween : Buffer :=
  { Buffer.ofText "\ta\n\n     b".toList (some 4) false 2 1024 with caret := 5, anchor := 0 }

theorem breakLine_follows_blankBetween :
    let outcome := (breakLine .plain).run blankBetween
    outcome.result = .ok () ∧ outcome.state.text = "\ta\n\n \n    b".toList ∧
      outcome.state.caret = outcome.state.anchor := by
  intro outcome
  have huniform : blankBetween.Uniform blankBetween.newline ["\ta".toList, [], "     b".toList] :=
    ⟨by decide, by decide, .single rfl, by decide⟩
  obtain ⟨front, rear, above, passed, before, after, guide, start, column, hlines, hcurrent, hstart, hcaret, hfollows,
    hindent, hbroken⟩ := breakLine_follows huniform rfl (by decide : (1 : Int) ≤ 4) (by decide) (by decide)
  have hfront : front.length = 2 := Int.natCast_inj.mp (hcurrent.symm.trans (by decide))
  obtain ⟨rfl, hline⟩ := List.append_inj (show ["\ta".toList, []] ++ ["     b".toList] = _ from hlines) hfront.symm
  obtain ⟨hparts, rfl⟩ := List.cons.inj hline
  obtain rfl : start = 4 := Except.ok.inj (hstart.symm.trans (by decide))
  have hbefore : before.length = 1 := by
    have hplace : (5 : Int) = (4 + before.length : Nat) := hcaret
    omega
  obtain ⟨rfl, rfl⟩ := List.append_inj (show " ".toList ++ "    b".toList = _ from hparts) hbefore.symm
  -- the two lines below the first are blank, so that it is the one to follow
  have hblank : ∀ line ∈ [[], " ".toList], line.all isBlank = true := by decide
  obtain rfl : above = [] := by
    cases above with
    | nil => rfl
    | cons first above =>
      have hbelow : [[], " ".toList] = above ++ guide :: passed := (List.cons.inj hfollows.parts).2
      have hmem : guide ∈ [[], " ".toList] := hbelow ▸ List.mem_append_right _ List.mem_cons_self
      exact absurd (List.all_eq_true.mp (hblank guide hmem)) (hfollows.filled.resolve_left (List.cons_ne_nil _ _))
  obtain rfl : column = 4 := Except.ok.inj (hindent.symm.trans (by decide +kernel))
  obtain ⟨hresult, hlast, place, -, hplace, hanchor⟩ := hbroken
  exact ⟨hresult, hlast.text.trans (by decide), hplace.trans hanchor.symm⟩

/-- The return key can fail to indent the new line. -/
theorem breakLine_follows_wideTabs :
    wideTabs.Uniform wideTabs.newline ["nop".toList] ∧ (∃ width, wideTabs.tabWidth = some width ∧ 1 ≤ width) ∧
      (0 ≤ wideTabs.caret ∧ wideTabs.caret ≤ wideTabs.text.length) ∧
      ¬ SplitsBreak (wideTabs.text.take wideTabs.caret.toNat) (wideTabs.text.drop wideTabs.caret.toNat) ∧
      ((breakLine .plain).run wideTabs).result = .error .columnOutOfRange := by
  have huniform : wideTabs.Uniform wideTabs.newline ["nop".toList] :=
    ⟨by decide, by decide, .single rfl, by decide⟩
  exact ⟨huniform, ⟨_, rfl, by decide⟩, by decide, by decide, by decide +kernel⟩

end Indenter

end ListingEditor
