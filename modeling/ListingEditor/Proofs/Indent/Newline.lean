import ListingEditor.Proofs.Buffer.Editing
import ListingEditor.Proofs.Indent.Keys
import ListingEditor.Proofs.Indent.Lines

/-!
What the return key makes of a line of a listing: the finished line, in order and without blanks at its end, and a new
line with the indentation that belongs to what stood behind the caret.
-/

namespace ListingEditor

open Buffer (Uniform leading)
open Text (SplitsBreak isBlank trimEnd)

namespace Buffer

/-- The caret rests in a line between two parts of it, and nothing is selected. -/
structure Rests (b : Buffer) (ending : List Char) (front : List (List Char)) (before after : List Char)
    (rear : List (List Char)) : Prop where
  uniform : b.Uniform ending (front ++ (before ++ after) :: rear)
  caret : b.caret = (leading ending front ++ before).length
  anchor : b.anchor = b.caret

variable {b : Buffer} {ending : List Char} {front rear : List (List Char)} {before after line : List Char}

theorem Uniform.rests_goto (huniform : b.Uniform ending (front ++ (before ++ after) :: rear)) {place : Int}
    (hplace : place = (leading ending front ++ before).length) :
    (b.goto place).Rests ending front before after rear := by
  have hinside : place ≤ b.text.length := by
    rw [hplace, huniform.text, intercalate_split]
    simp only [List.length_append]
    omega
  have hclamped : max 0 (min place b.length) = place := by
    rw [length]
    omega
  exact ⟨huniform.of_text rfl, hclamped.trans hplace, rfl⟩

theorem Rests.currentLine_eq (hrests : b.Rests ending front before after rear) :
    b.currentLine = front.length := by
  rw [currentLine, hrests.caret, List.length_append]
  apply hrests.uniform.lineOf_column
  rw [List.length_append]
  omega

/-- A place that is not inside a pair of returns lies in a line or at its end. -/
theorem Uniform.exists_column {lines : List (List Char)} (huniform : b.Uniform ending lines) {place : Nat}
    (hinside : place ≤ b.text.length) (hwhole : ¬ SplitsBreak (b.text.take place) (b.text.drop place)) :
    ∃ front line rear column, lines = front ++ line :: rear ∧ column ≤ line.length ∧
      place = (leading ending front).length + column := by
  obtain ⟨front, line, rear, rfl, hstart, hstop, -⟩ := huniform.exists_line place
  refine ⟨front, line, rear, place - (leading ending front).length, rfl, ?_, by omega⟩
  by_contra hbehind
  have htext := huniform.text
  rw [intercalate_split] at htext
  cases rear with
  | nil =>
    rw [htext] at hinside
    simp only [List.length_append, trailing, List.flatMap_nil, List.length_nil] at hinside
    omega
  | cons next rear =>
    have hlt := hstop.resolve_left (List.cons_ne_nil _ _)
    cases huniform.isEnding with
    | single hreturn =>
      rw [List.length_singleton] at hlt
      omega
    | pair =>
      -- only the place between the two returns is left
      have hplace : place = (leading ['\r', '\n'] front ++ line ++ ['\r']).length := by
        simp only [List.length_append, List.length_cons, List.length_nil] at hlt ⊢
        omega
      have hparts : b.text = leading ['\r', '\n'] front ++ line ++ ['\r'] ++
          '\n' :: (next ++ trailing ['\r', '\n'] rear) := by
        rw [htext, trailing_cons]
        simp
      apply hwhole
      rw [hplace, hparts, List.take_left, List.drop_left]
      exact ⟨List.getLast?_concat, rfl⟩

end Buffer

namespace Indenter

variable {columns : Indent.Columns} {b : Buffer} {ending : List Char} {front rear : List (List Char)}
  {before after line : List Char}

/-- Reindenting the caret's line keeps the caret where it is in the text of the line. A caret in the indentation comes
to stand behind it. -/
theorem reindentCurrentLine_uniform (huniform : b.Uniform ending (front ++ line :: rear)) {column : Nat}
    (hcolumn : column ≤ line.length) (hcaret : b.caret = ((leading ending front).length + column : Nat))
    {blanks : List Char} (hblanks : b.indentString (columns.column line) = .ok blanks) :
    let content := line.dropWhile isBlank
    let offset := column - (line.takeWhile isBlank).length
    ∃ place b', (reindentCurrentLine (.listing columns)).effect b = (.ok place, b') ∧
      (b'.goto place).Rests ending front (blanks ++ content.take offset) (content.drop offset) rear ∧
      b'.layout = b.layout := by
  intro content offset
  have hline : (line.takeWhile isBlank).length + content.length = line.length := by
    rw [← List.length_append, List.takeWhile_append_dropWhile]
  have hcurrent : b.currentLine = front.length := by
    rw [Buffer.currentLine, hcaret]
    exact huniform.lineOf_column hcolumn
  obtain ⟨b', heffect, hedited, hlayout⟩ := reindentLine_uniform_of_ok huniform hblanks
  rw [← hcurrent] at heffect
  refine ⟨_, b', (Step.effect_bind_look ..).trans heffect, ?_, hlayout⟩
  rw [← List.take_append_drop offset (line.dropWhile isBlank), ← List.append_assoc] at hedited
  apply hedited.rests_goto
  rw [List.length_append, List.length_append, List.length_take, hcaret]
  change _ = ((_ + (_ + min offset content.length) : Nat) : Int)
  by_cases hindent : column ≤ (line.takeWhile isBlank).length
  · rw [caretAfter_of_le_old (by omega) (by omega)]
    omega
  · rw [caretAfter_of_old_le (by omega) (by omega) (by omega)]
    omega

theorem deleteBlanksBeforeCaret_rests (hrests : b.Rests ending front before after rear) :
    ∃ b', deleteBlanksBeforeCaret.effect b = (.ok (), b') ∧
      b'.Rests ending front (trimEnd isBlank before) after rear ∧ b'.layout = b.layout := by
  have hstart : b.lineStart b.currentLine = .ok (leading ending front).length := by
    rw [hrests.currentLine_eq]
    exact hrests.uniform.lineStart_eq
  have hrange : b.range (leading ending front).length b.caret = before := by
    have htext : b.text = leading ending front ++ before ++ (after ++ Buffer.trailing ending rear) := by
      rw [hrests.uniform.text, Buffer.intercalate_split]
      simp only [List.append_assoc]
    rw [hrests.caret, List.length_append]
    exact b.range_middle htext
  obtain ⟨tail, hbefore, -, heffect⟩ := deleteBlanksBeforeCaret_effect hstart hrange
  generalize trimEnd isBlank before = kept at hbefore ⊢
  subst hbefore
  by_cases hnone : tail = []
  · rw [if_pos hnone] at heffect
    subst hnone
    rw [List.append_nil] at hrests
    exact ⟨b, heffect, hrests, rfl⟩
  · rw [if_neg hnone] at heffect
    refine ⟨_, heffect, ?_, b.replaceRange_layout (b.caret - tail.length) b.caret []⟩
    have hkept : b.caret - tail.length = (leading ending front ++ kept).length := by
      simp only [hrests.caret, List.length_append]
      omega
    have hcaret : b.caret = ((leading ending front ++ kept).length + tail.length : Nat) := by
      rw [hrests.caret, ← List.append_assoc, List.length_append]
    have hnothing : Buffer.Unbroken [] := nofun
    have hedited := hrests.uniform.replaceRange hnothing
    rw [List.append_nil, ← hkept, ← hcaret] at hedited
    exact hedited.rests_goto hkept

/-- Breaking a line at the caret makes two of it. The caret comes to stand in front of the second, which is then
reindented. -/
theorem startLine_effect (indenter : Indenter) (huniform : b.Uniform ending (front ++ (before ++ after) :: rear))
    (hcaret : b.caret = (leading ending front ++ before).length) :
    ∃ b', b'.Rests ending (front ++ [before]) [] after rear ∧ b'.layout = b.layout ∧
      (startLine indenter ending).effect b =
        (do
          let place ← indenter.reindentLine (front ++ [before]).length
          Step.change (·.goto place) : Command Unit).effect b' := by
  have hcurrent : b.currentLine = front.length := by
    rw [Buffer.currentLine, hcaret, List.length_append]
    exact huniform.lineOf_column (by rw [List.length_append]; omega)
  have hbroken := huniform.insertEnding
  rw [← hcaret, ← List.singleton_append, ← List.append_assoc, ← List.nil_append after] at hbroken
  have hplace : b.caret + ending.length = (leading ending (front ++ [before]) ++ []).length := by
    rw [hcaret, Buffer.leading_concat]
    simp only [List.length_append, List.length_nil]
    omega
  refine ⟨_, hbroken.rests_goto hplace, b.replaceRange_layout b.caret b.caret ending, ?_⟩
  rw [startLine_reindents, hcurrent, List.length_append, List.length_singleton, Int.natCast_add]
  rfl

section

variable {indenter : Indenter} {column : Int}

/-- The line has been broken when no blanks reach the column of the new one. -/
theorem startLine_fails (huniform : b.Uniform ending (front ++ (before ++ after) :: rear))
    (hcaret : b.caret = (leading ending front ++ before).length)
    (hcolumn : ∀ b' : Buffer, b'.Uniform ending (front ++ [before] ++ after :: rear) → b'.layout = b.layout →
      indenter.findColumn b' (front ++ [before]).length = .ok (some column))
    {e : EditError} (hblanks : b.indentString column = .error e) :
    ∃ b', (startLine indenter ending).effect b = (.error e, b') ∧
      b'.Rests ending (front ++ [before]) [] after rear ∧ b'.layout = b.layout := by
  obtain ⟨b', hbroken, hlayout, heffect⟩ := startLine_effect indenter huniform hcaret
  rw [← Buffer.indentString_of_layout hlayout] at hblanks
  have hreindent := reindentLine_effect_of_error hbroken.uniform.lineStart_eq hbroken.uniform.indentEnd_eq
    (hcolumn b' hbroken.uniform hlayout) hblanks
  exact ⟨b', heffect.trans (Step.effect_bind_of_error hreindent), hbroken, hlayout⟩

/-- The new line gets the blanks that reach its column, and the caret comes to stand behind them. -/
theorem startLine_indents (huniform : b.Uniform ending (front ++ (before ++ after) :: rear))
    (hcaret : b.caret = (leading ending front ++ before).length)
    (hcolumn : ∀ b' : Buffer, b'.Uniform ending (front ++ [before] ++ after :: rear) → b'.layout = b.layout →
      indenter.findColumn b' (front ++ [before]).length = .ok (some column))
    {blanks : List Char} (hblanks : b.indentString column = .ok blanks) :
    ∃ b', (startLine indenter ending).effect b = (.ok (), b') ∧
      b'.Rests ending (front ++ [before]) blanks (after.dropWhile isBlank) rear ∧ b'.layout = b.layout := by
  obtain ⟨b₁, hbroken, hlayout, heffect⟩ := startLine_effect indenter huniform hcaret
  rw [← Buffer.indentString_of_layout hlayout] at hblanks
  obtain ⟨b₂, hreindent, hedited, hlayout₂⟩ :=
    reindentLine_uniform hbroken.uniform (hcolumn b₁ hbroken.uniform hlayout) hblanks
  have hcaret₁ : b₁.caret = (leading ending (front ++ [before])).length := by
    rw [hbroken.caret, List.append_nil]
  refine ⟨_, heffect.trans ((Step.effect_bind_of_ok hreindent).trans (Step.effect_change ..)), ?_,
    hlayout₂.trans hlayout⟩
  apply hedited.rests_goto
  rw [hcaret₁, caretAfter_of_le_old (by omega) (by omega), List.length_append]

end

theorem startLine_of_error (hrests : b.Rests ending front before after rear) {e : EditError}
    (hblanks : b.indentString (columns.column after) = .error e) :
    ∃ b', (startLine (.listing columns) ending).effect b = (.error e, b') ∧
      b'.Uniform ending (front ++ [before] ++ after :: rear) := by
  obtain ⟨b', heffect, hbroken, -⟩ := startLine_fails hrests.uniform hrests.caret
    (fun _ hbroken _ => findColumn_uniform columns hbroken) hblanks
  exact ⟨b', heffect, hbroken.uniform⟩

theorem startLine_of_ok (hrests : b.Rests ending front before after rear) {blanks : List Char}
    (hblanks : b.indentString (columns.column after) = .ok blanks) :
    ∃ b', (startLine (.listing columns) ending).effect b = (.ok (), b') ∧
      b'.Rests ending (front ++ [before]) blanks (after.dropWhile isBlank) rear := by
  obtain ⟨b', heffect, hrests', -⟩ := startLine_indents hrests.uniform hrests.caret
    (fun _ hbroken _ => findColumn_uniform columns hbroken) hblanks
  exact ⟨b', heffect, hrests'⟩

theorem breakLine_of_error (huniform : b.Uniform ending (front ++ line :: rear))
    (hcurrent : b.currentLine = front.length) {e : EditError}
    (hblanks : b.indentString (columns.column line) = .error e) :
    (breakLine (.listing columns)).effect b = (.error e, b.beginUndo.endUndo) := by
  have hopened : b.beginUndo.Uniform ending (front ++ line :: rear) := huniform.of_text rfl
  have hreindent : (reindentCurrentLine (.listing columns)).effect b.beginUndo = (.error e, b.beginUndo) := by
    rw [reindentCurrentLine, Step.effect_bind_look, show b.beginUndo.currentLine = front.length from hcurrent]
    exact reindentLine_uniform_of_error hopened hblanks
  rw [breakLine_listing, Step.effect_bind_look]
  exact Command.grouped_effect (Step.effect_bind_of_error hreindent)

/-- The return key puts the caret's line in order before it breaks it. -/
theorem breakLine_of_ok (huniform : b.Uniform ending (front ++ line :: rear)) {column : Nat}
    (hcolumn : column ≤ line.length) (hcaret : b.caret = ((leading ending front).length + column : Nat))
    {blanks : List Char} (hblanks : b.indentString (columns.column line) = .ok blanks) :
    let content := line.dropWhile isBlank
    let offset := column - (line.takeWhile isBlank).length
    ∃ b', b'.Rests ending front (trimEnd isBlank (blanks ++ content.take offset)) (content.drop offset) rear ∧
      b'.layout = b.layout ∧
      ∀ {result : Except EditError Unit} {last : Buffer},
        (startLine (.listing columns) b.newline).effect b' = (result, last) →
          (breakLine (.listing columns)).effect b = (result, last.endUndo) := by
  intro content offset
  have hopened : b.beginUndo.Uniform ending (front ++ line :: rear) := huniform.of_text rfl
  obtain ⟨place, b₁, hreindent, hrests₁, hlayout₁⟩ := reindentCurrentLine_uniform hopened hcolumn hcaret hblanks
  obtain ⟨b₂, hdelete, hrests₂, hlayout₂⟩ := deleteBlanksBeforeCaret_rests hrests₁
  refine ⟨b₂, hrests₂, hlayout₂.trans hlayout₁, fun hstart => ?_⟩
  rw [breakLine_listing, Step.effect_bind_look]
  apply Command.grouped_effect
  rw [Step.effect_bind_of_ok hreindent, Step.effect_bind_change, Step.effect_bind_of_ok hdelete, hstart]

/-- The return key breaks the caret's line in two. The text of the line up to the caret stays, with the indentation
that belongs to the line and without blanks at its end; the rest of it becomes a line with an indentation of its own,
behind which the caret comes to stand. All other lines stay as they are. If there is no first indentation, the text
stays as it is; if there is no second one, the line has been broken already. -/
theorem breakLine_lines (columns : Indent.Columns) {lines : List (List Char)} (huniform : b.Uniform b.newline lines)
    (hcaret : 0 ≤ b.caret ∧ b.caret ≤ b.text.length)
    (hwhole : ¬ SplitsBreak (b.text.take b.caret.toNat) (b.text.drop b.caret.toNat)) :
    ∃ (front rear : List (List Char)) (line : List Char) (start : Nat), lines = front ++ line :: rear ∧
      b.currentLine = front.length ∧ b.indentEnd front.length = .ok start ∧
      let offset := (b.caret - start).toNat
      let before := (line.dropWhile isBlank).take offset
      let after := (line.dropWhile isBlank).drop offset
      let outcome := (breakLine (.listing columns)).run b
      match b.indentString (columns.column line), b.indentString (columns.column after) with
      | .error e, _ => outcome.result = .error e ∧ outcome.state.text = b.text
      | .ok indent, .error e =>
        outcome.result = .error e ∧
          outcome.state.Uniform b.newline (front ++ [trimEnd isBlank (indent ++ before), after] ++ rear)
      | .ok indent, .ok indent' =>
        outcome.result = .ok () ∧
          outcome.state.Uniform b.newline
            (front ++ [trimEnd isBlank (indent ++ before), indent' ++ after.dropWhile isBlank] ++ rear) ∧
          ∃ place : Nat, outcome.state.indentEnd (front.length + 1) = .ok place ∧
            outcome.state.caret = place ∧ outcome.state.anchor = place := by
  obtain ⟨caret, hplace⟩ := Int.eq_ofNat_of_zero_le hcaret.1
  rw [hplace, Int.toNat_natCast] at hwhole
  obtain ⟨front, line, rear, column, rfl, hcolumn, hcaretLine⟩ := huniform.exists_column (by omega) hwhole
  have hcurrent : b.currentLine = front.length := by
    rw [Buffer.currentLine, hplace, hcaretLine]
    exact huniform.lineOf_column hcolumn
  rw [hcaretLine] at hplace
  refine ⟨front, rear, line, _, rfl, hcurrent, huniform.indentEnd_eq, ?_⟩
  intro offset before after outcome
  have hoffset : offset = column - (line.takeWhile isBlank).length := by
    change (b.caret - _).toNat = _
    omega
  cases hindent : b.indentString (columns.column line) with
  | error e =>
    obtain ⟨hresult, hstate⟩ := Prod.mk.inj (breakLine_of_error huniform hcurrent hindent)
    have htext : outcome.state.text = b.beginUndo.endUndo.text := congrArg Buffer.text hstate
    exact ⟨hresult, htext⟩
  | ok indent =>
    obtain ⟨b', hrests, hlayout, hbreak⟩ := breakLine_of_ok huniform hcolumn hplace hindent
    -- the second indentation is the one that the given buffer has for it: no edit changes the layout
    have hindents := Buffer.indentString_of_layout hlayout
    have hlines (next : List Char) :
        front ++ [trimEnd isBlank (indent ++ before), next] ++ rear =
          front ++ [trimEnd isBlank (indent ++ before)] ++ next :: rear := by simp
    rw [← hoffset] at hrests
    cases hindent' : b.indentString (columns.column after) with
    | error e =>
      obtain ⟨last, hstart, hbroken⟩ := startLine_of_error hrests ((hindents _).trans hindent')
      obtain ⟨hresult, hstate⟩ := Prod.mk.inj (hbreak hstart)
      have htext : outcome.state.text = last.endUndo.text := congrArg Buffer.text hstate
      dsimp only
      rw [hlines]
      exact ⟨hresult, hbroken.of_text htext⟩
    | ok indent' =>
      obtain ⟨last, hstart, hlast⟩ := startLine_of_ok hrests ((hindents _).trans hindent')
      obtain ⟨hresult, hstate⟩ := Prod.mk.inj (hbreak hstart)
      have hblank := (Buffer.indentString_blank hindent').1
      have hfinal : outcome.state = last.endUndo := hstate
      have hline := hlast.uniform.indentEnd_eq
      rw [Text.takeWhile_append_dropWhile_isBlank hblank, List.length_append, List.length_singleton,
        ← List.length_append, Int.natCast_add] at hline
      dsimp only
      rw [hlines, hfinal]
      exact ⟨hresult, hlast.uniform.of_text rfl, _, hline, hlast.caret, hlast.anchor.trans hlast.caret⟩

/-- An instruction and a comment, with the caret between them. -/
def commentedLine : Buffer :=
  { Buffer.ofText "  nop  # a".toList (some 8) false 0 1024 with caret := 6, anchor := 2 }

theorem breakLine_lines_commentedLine :
    let outcome := (breakLine (.listing ⟨['#'], 16, 8⟩)).run commentedLine
    outcome.result = .ok () ∧ outcome.state.text = "        nop\r\n                # a".toList ∧
      outcome.state.caret = outcome.state.anchor := by
  intro outcome
  have huniform : commentedLine.Uniform commentedLine.newline ["  nop  # a".toList] :=
    ⟨by decide, by decide, .pair, by decide⟩
  obtain ⟨front, rear, line, start, hlines, -, hstart, hbroken⟩ :=
    breakLine_lines ⟨['#'], 16, 8⟩ huniform (by decide) (by decide)
  obtain ⟨rfl, hline⟩ | ⟨-, hnone⟩ := List.append_eq_singleton_iff.mp hlines.symm
  · obtain ⟨rfl, rfl⟩ := List.cons.inj hline
    obtain rfl : start = 2 := Except.ok.inj (hstart.symm.trans (by decide))
    obtain ⟨hresult, hlast, place, -, hcaret, hanchor⟩ := hbroken
    exact ⟨hresult, hlast.text.trans (by decide), hcaret.trans hanchor.symm⟩
  · cases hnone

/-- A line in a buffer with tabs for whose width there is no memory. -/
def wideTabs : Buffer :=
  { Buffer.ofText "nop".toList (some 100000000000000000000) true 2 1024 with caret := 3, anchor := 3 }

/-- The return key can fail to break a line. -/
theorem breakLine_wideTabs :
    wideTabs.Uniform wideTabs.newline ["nop".toList] ∧ (∃ width, wideTabs.tabWidth = some width ∧ 1 ≤ width) ∧
      (0 ≤ wideTabs.caret ∧ wideTabs.caret ≤ wideTabs.text.length) ∧
      ¬ SplitsBreak (wideTabs.text.take wideTabs.caret.toNat) (wideTabs.text.drop wideTabs.caret.toNat) ∧
      ((breakLine (.listing ⟨['#'], 32, 8⟩)).run wideTabs).result = .error .columnOutOfRange ∧
      ((breakLine (.listing ⟨['#'], 32, 8⟩)).run wideTabs).state.text = "nop".toList := by
  have huniform : wideTabs.Uniform wideTabs.newline ["nop".toList] :=
    ⟨by decide, by decide, .single rfl, by decide⟩
  exact ⟨huniform, ⟨_, rfl, by decide⟩, by decide, by decide, by decide +kernel, by decide +kernel⟩

end Indenter

end ListingEditor
