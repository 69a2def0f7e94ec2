import ListingEditor.Proofs.Buffer.Parted
import ListingEditor.Proofs.Indent.Line

/-!
Breaking a line of any text, whatever its lines end with. The line end that is put in makes two lines of the caret's
line, unless it joins a return next to it. Then there is no new line, and another line is reindented in its place.
-/

namespace ListingEditor

open Text (AllBlank SplitsBreak isBlank trimEnd)
open Buffer (IsEnding Rows Unbroken rowText)

namespace Indenter

variable {columns : Indent.Columns}

/-- Behind the last line there is none to reindent, and the blanks go to the last line. -/
theorem reindentLine_behind (columns : Indent.Columns) {b : Buffer} {line : Nat} (hline : b.lineCount ≤ line) :
    (∃ e, b.indentString (columns.column []) = .error e ∧
        (reindentLine (.listing columns) line).effect b = (.error e, b)) ∨
      ∃ place b', (reindentLine (.listing columns) line).effect b = (.ok place, b') ∧
        ∃ last, b'.lineTexts = b.lineTexts.set (b.lineTexts.length - 1) last := by
  have hstart {c : Buffer} (hcount : c.lineCount ≤ line) : c.lineStart line = .ok c.text.length := by
    rw [Buffer.lineStart_natCast, List.getElem?_eq_none hcount, Option.getD_none, Buffer.length]
  have hold := Buffer.indentEnd_eq (List.append_nil b.text).symm (hstart hline)
  have hcolumn : findColumn (.listing columns) b line = .ok (some (columns.column [])) := by
    rw [findColumn, Buffer.lineText_eq (List.append_nil b.text).symm (hstart hline)]
    rfl
  cases hblanks : b.indentString (columns.column []) with
  | error e => exact .inl ⟨e, rfl, reindentLine_effect_of_error (hstart hline) hold hcolumn hblanks⟩
  | ok blanks =>
    right
    have htext : b.text = b.text ++ [] ++ [] := by rw [List.append_nil, List.append_nil]
    have hedit := b.replaceRange_middle blanks htext
    rw [List.append_nil] at hedit
    obtain ⟨last, hlines⟩ := Buffer.lineTexts_append_unbroken (Buffer.indentString_blank hblanks).1.unbroken hedit
    have hcount := congrArg List.length hlines
    rw [List.length_set, Buffer.length_lineTexts, Buffer.length_lineTexts] at hcount
    have hnew := Buffer.indentEnd_eq (List.append_nil _).symm (hstart (hcount.trans_le hline))
    exact ⟨_, _, reindentLine_effect_of_ok (hstart hline) hold hcolumn hblanks hnew, last, hlines⟩

/-- Reindenting a line changes no other line, except that behind the last line it is the last one that changes. -/
theorem reindentLine_lineTexts (hmarker : columns.marker ≠ []) (hcode : 1 ≤ columns.code) (b : Buffer) (line : Nat) :
    (∃ text e, b.indentString (columns.column text) = .error e ∧
        (reindentLine (.listing columns) line).effect b = (.error e, b)) ∨
      ∃ place b', (reindentLine (.listing columns) line).effect b = (.ok place, b') ∧
        ∃ new, b'.lineTexts = b.lineTexts.set (min line (b.lineTexts.length - 1)) new := by
  by_cases hline : line < b.lineCount
  · obtain ⟨front, indent, rest, rear, rfl, hindented⟩ := Buffer.exists_indented hline
    cases hblanks : b.indentString (columns.column (rowText rest)) with
    | error e => exact .inl ⟨_, e, hblanks, reindentLine_indented_of_error hindented hblanks⟩
    | ok blanks =>
      have hfeed := head_ne_feed hmarker hcode hblanks
      obtain ⟨heffect, hnew⟩ := reindentLine_indented_of_feed hindented hblanks hfeed
      refine .inr ⟨_, _, heffect, blanks ++ rowText rest, ?_⟩
      rw [Buffer.length_lineTexts, Nat.min_eq_left (by omega), hnew.lineTexts_eq, hindented.lineTexts_eq]
      simp
  · obtain ⟨e, hblanks, heffect⟩ | ⟨place, b', heffect, last, hlines⟩ :=
      reindentLine_behind columns (Nat.le_of_not_lt hline)
    · exact .inl ⟨_, e, hblanks, heffect⟩
    · refine .inr ⟨place, b', heffect, last, ?_⟩
      rw [hlines, Nat.min_eq_right]
      rw [Buffer.length_lineTexts]
      omega

/-- The lines of a text in which a line end has been put in, between the lines above and those below. If it joins a
return, there is no new line, and the line below may be another. -/
structure Broken (joins : Prop) (above below lines : List (List Char)) : Prop where
  apart : ¬ joins → ∃ first second, lines = above ++ first :: second :: below
  joined : joins → ∃ changed below', lines = above ++ changed :: below' ∧ below'.length = below.length ∧
    below'.tail = below.tail

theorem Broken.set {joins : Prop} {above below lines : List (List Char)} (hbroken : Broken joins above below lines)
    {offset : Nat} (hoffset : offset ≤ 1) (new : List Char) :
    Broken joins above below (lines.set (min (above.length + offset) (lines.length - 1)) new) where
  apart hjoins := by
    obtain ⟨first, second, rfl⟩ := hbroken.apart hjoins
    rw [List.length_append, List.length_cons, List.length_cons, Nat.min_eq_left (by omega),
      List.set_append_right _ _ (Nat.le_add_right ..), Nat.add_sub_cancel_left]
    obtain rfl | rfl : offset = 0 ∨ offset = 1 := by omega
    · exact ⟨new, second, rfl⟩
    · exact ⟨first, new, rfl⟩
  joined hjoins := by
    obtain ⟨changed, below', rfl, hlength, htail⟩ := hbroken.joined hjoins
    rw [List.length_append, List.length_cons, ← Nat.add_assoc, Nat.add_sub_cancel, Nat.add_min_add_left,
      List.set_append_right _ _ (Nat.le_add_right ..), Nat.add_sub_cancel_left]
    obtain hplace | hplace : min offset below'.length = 0 ∨ min offset below'.length = 1 := by omega
    · exact ⟨new, below', by rw [hplace]; rfl, hlength, htail⟩
    · cases below' with
      | nil => simp at hplace
      | cons next below' => exact ⟨changed, new :: below', by rw [hplace]; rfl, hlength, htail⟩

section Parted

variable {b : Buffer} {front rear : List (List Char)} {kept after newline : List Char}

theorem Broken.of_parted (hparted : b.Parted front kept after rear) (hending : IsEnding newline)
    {b' : Buffer} (htext : b'.text = front.flatten ++ kept ++ newline ++ (after ++ rear.flatten)) :
    Broken (Buffer.Joins (front.flatten ++ kept) newline (after ++ rear.flatten)) (front.map rowText)
      (rear.map rowText) b'.lineTexts where
  apart hjoins := ⟨_, _, hparted.lineTexts_of_not_joins hending htext hjoins⟩
  joined hjoins := by
    obtain ⟨changed, hlines⟩ := hparted.lineTexts_of_joins hending htext hjoins
    exact ⟨changed, _, hlines, rfl, rfl⟩

theorem startLine_parted (hmarker : columns.marker ≠ []) (hcode : 1 ≤ columns.code)
    (hparted : b.Parted front kept after rear) (hending : IsEnding newline) :
    let broken := (startLine (.listing columns) newline).effect b
    Broken (Buffer.Joins (front.flatten ++ kept) newline (after ++ rear.flatten)) (front.map rowText)
        (rear.map rowText) broken.2.lineTexts ∧
      ((∀ text, ∃ blanks, b.indentString (columns.column text) = .ok blanks) → broken.1 = .ok ()) := by
  intro broken
  have htext : b.text = front.flatten ++ kept ++ [] ++ (after ++ rear.flatten) := by
    rw [List.append_nil, hparted.text]
  have hedit := b.replaceRange_middle newline htext
  have hlayout := b.replaceRange_layout b.caret b.caret newline
  rw [List.length_nil, Nat.add_zero, ← hparted.caret] at hedit
  let opened := (b.replaceRange b.caret b.caret newline).goto (b.caret + newline.length)
  have hopened : Broken _ _ _ opened.lineTexts := .of_parted hparted hending (show opened.text = _ from hedit)
  obtain ⟨offset, hoffset, hnext⟩ : ∃ offset ≤ 1,
      b.currentLine + 1 = (((front.map rowText).length + offset : Nat) : Int) := by
    rw [List.length_map]
    obtain hcurrent | hcurrent := hparted.currentLine_cases
    · exact ⟨1, Nat.le_refl 1, by omega⟩
    · exact ⟨0, Nat.zero_le 1, by omega⟩
  have heffect : broken = (do
      let place ← reindentLine (.listing columns) ((front.map rowText).length + offset : Nat)
      Step.change (·.goto place) : Command Unit).effect opened := by
    rw [← hnext]
    exact startLine_reindents ..
  obtain ⟨text, e, hblanks, hreindent⟩ | ⟨place, b', hreindent, new, hlines⟩ :=
    reindentLine_lineTexts hmarker hcode opened ((front.map rowText).length + offset)
  · rw [heffect, Step.effect_bind_of_error hreindent]
    refine ⟨hopened, fun hall => ?_⟩
    obtain ⟨blanks, hok⟩ := hall text
    rw [← Buffer.indentString_of_layout hlayout] at hok
    cases hblanks.symm.trans hok
  · rw [heffect, Step.effect_bind_of_ok hreindent, Step.effect_change]
    refine ⟨?_, fun _ => rfl⟩
    rw [Buffer.lineTexts_of_text (show (b'.goto place).text = b'.text from rfl), hlines]
    exact hopened.set hoffset new

end Parted

section Opening

variable {b : Buffer} {front rear : List (List Char)} {before after : List Char}

/-- The blanks between the caret and the text before it on its line are removed. -/
theorem deleteBlanksBeforeCaret_cut (hcut : b.Cut front before after rear) :
    ∃ b', deleteBlanksBeforeCaret.effect b = (.ok (), b') ∧
      b'.text = front.flatten ++ trimEnd isBlank before ++ (after ++ rear.flatten) ∧
      b'.caret = (front.flatten ++ trimEnd isBlank before).length ∧ b'.layout = b.layout := by
  obtain ⟨tail, hbefore, -, heffect⟩ := deleteBlanksBeforeCaret_effect hcut.lineStart_eq hcut.range_eq
  generalize trimEnd isBlank before = kept at hbefore ⊢
  subst hbefore
  have htext : b.text = front.flatten ++ kept ++ tail ++ (after ++ rear.flatten) := by
    rw [hcut.text_eq, List.append_assoc front.flatten kept]
  have hcaret : b.caret = ((front.flatten ++ kept).length + tail.length : Nat) := by
    rw [hcut.caret, ← List.append_assoc, List.length_append]
  by_cases hnone : tail = []
  · subst hnone
    rw [List.append_nil] at htext
    rw [if_pos rfl] at heffect
    exact ⟨b, heffect, htext, hcaret, rfl⟩
  · rw [if_neg hnone] at heffect
    have hkept : b.caret - tail.length = (front.flatten ++ kept).length := by omega
    have hedit := b.replaceRange_middle [] htext
    have hlayout := b.replaceRange_layout (front.flatten ++ kept).length b.caret []
    rw [← hcaret, List.append_nil] at hedit
    rw [hkept, Buffer.goto_eq_select hedit] at heffect
    exact ⟨_, heffect, hedit, rfl, hlayout⟩

/-- What a line says, cut at the caret. In front of that there is nothing if the caret is in the indentation. -/
theorem exists_content_cut {indent content : List Char} (hcut : b.Cut front before after rear)
    (hunbroken : Unbroken before) (hline : b.Indented front indent content rear)
    (hrow : before ++ after = indent ++ content) :
    let stop := front.flatten.length + indent.length
    ∃ said rest, content = said ++ rest ∧ Unbroken said ∧ (said = [] ↔ b.caret ≤ stop) ∧
      rest ++ rear.flatten = b.text.drop (max b.caret.toNat stop) ∧
      ∀ blanks : List Char, caretAfter front.flatten.length stop (front.flatten.length + blanks.length : Nat) b.caret =
        (front.flatten ++ (blanks ++ said)).length := by
  intro stop
  have hcaret := hcut.caret
  rw [List.length_append] at hcaret
  obtain ⟨left, rfl, rfl⟩ | ⟨said, rfl, rfl⟩ := List.append_eq_append_iff.mp hrow
  · have hold : b.caret ≤ stop := by
      simp only [stop, List.length_append]
      omega
    refine ⟨[], content, rfl, nofun, iff_of_true rfl hold, ?_, fun blanks => ?_⟩
    · rw [Nat.max_eq_right (by omega), hline.text_eq, List.drop_left' (by rw [List.length_append])]
    · rw [caretAfter_of_le_old (by omega) hold, List.append_nil, List.length_append]
  · have hbehind : b.caret = (stop + said.length : Nat) := by
      simp only [hcaret, stop, List.length_append]
      omega
    refine ⟨said, after, rfl, fun c hc => hunbroken c (List.mem_append_right _ hc), ?_, ?_, fun blanks => ?_⟩
    · rw [← List.length_eq_zero_iff]
      omega
    · rw [hcut.text_eq, Nat.max_eq_left (by omega), hcut.caret, Int.toNat_natCast, List.drop_left]
    · rw [caretAfter_of_old_le (by omega) (by omega) (by omega), List.length_append, List.length_append]
      omega

theorem cut_goto {blanks said rest : List Char} (hline : b.Indented front blanks (said ++ rest) rear)
    (hof : b.lineOf (front.flatten ++ (blanks ++ said)).length = front.length) :
    (b.goto (front.flatten ++ (blanks ++ said)).length).Cut front (blanks ++ said) rest rear := by
  have hrow : blanks ++ (said ++ rest) = blanks ++ said ++ rest := (List.append_assoc ..).symm
  have htext : b.text = front.flatten ++ (blanks ++ said) ++ (rest ++ rear.flatten) := by
    rw [hline.text_eq]
    simp only [List.append_assoc]
  rw [Buffer.goto_eq_select htext]
  exact ⟨hrow ▸ hline.rows, hrow ▸ hline.text, rfl, hof⟩

/-- Without the blanks at its end nothing is left of a line if it says nothing. -/
theorem trimEnd_eq_nil_iff {blanks said rest : List Char} (hblanks : AllBlank blanks)
    (hcontent : (said ++ rest).takeWhile isBlank = []) : trimEnd isBlank (blanks ++ said) = [] ↔ said = [] := by
  constructor
  · intro hnone
    obtain ⟨tail, hparts, htail⟩ := Text.exists_eq_trimEnd_append isBlank (blanks ++ said)
    rw [hnone, List.nil_append] at hparts
    have hblank : AllBlank said := fun c hc => htail c (hparts ▸ List.mem_append_right blanks hc)
    rw [List.takeWhile_append_of_pos hblank] at hcontent
    exact (List.append_eq_nil_iff.mp hcontent).1
  · rintro rfl
    have hnothing : ∀ c ∈ ([] : List Char), isBlank c = false := nofun
    have htrim := Text.trimEnd_append hnothing hblanks
    rwa [List.nil_append, ← List.append_nil blanks] at htrim

/-- The return key puts the caret's line in order, takes the blanks before the caret away and then breaks it. -/
theorem breakLine_opens (hmarker : columns.marker ≠ []) (hcode : 1 ≤ columns.code) {indent content blanks : List Char}
    (hcut : b.Cut front before after rear) (hunbroken : Unbroken before)
    (hline : b.Indented front indent content rear) (hrow : before ++ after = indent ++ content)
    (hblanks : b.indentString (columns.column (rowText content)) = .ok blanks) :
    let stop := front.flatten.length + indent.length
    ∃ kept rest b', b'.Parted front kept rest rear ∧ b'.layout = b.layout ∧ (kept = [] ↔ b.caret ≤ stop) ∧
      rest ++ rear.flatten = b.text.drop (max b.caret.toNat stop) ∧
      let opened := (startLine (.listing columns) b.newline).effect b'
      (breakLine (.listing columns)).effect b = (opened.1, opened.2.endUndo) := by
  intro stop
  obtain ⟨said, rest, rfl, hsaid, hstop, hrest, hplace⟩ := exists_content_cut hcut hunbroken hline hrow
  have hblank := (Buffer.indentString_blank hblanks).1
  have hbegun : b.beginUndo.Indented front indent (said ++ rest) rear := hline.of_text rfl
  have hcurrent : b.beginUndo.currentLine = front.length := hcut.current
  obtain ⟨hstart, hinside⟩ := hcut.caret_bounds
  -- the line in order
  obtain ⟨hreindent, hnew⟩ := reindentLine_indented_of_feed hbegun hblanks (head_ne_feed hmarker hcode hblanks)
  have hlayout := b.beginUndo.replaceRange_layout front.flatten.length
    (front.flatten.length + indent.length : Nat) blanks
  generalize b.beginUndo.replaceRange front.flatten.length (front.flatten.length + indent.length : Nat) blanks = b₁
    at hreindent hnew hlayout
  obtain ⟨place, hmoved, -, -, hof⟩ := exists_caretAfter hbegun hcurrent hstart hinside hnew
  obtain rfl : place = (front.flatten ++ (blanks ++ said)).length :=
    Int.ofNat_inj.mp (hmoved.symm.trans (hplace blanks))
  have hcut₁ := cut_goto hnew hof
  -- and without the blanks before the caret
  obtain ⟨b₂, hdelete, htext, hcaret, hlayout₂⟩ := deleteBlanksBeforeCaret_cut hcut₁
  have hfull : Unbroken (blanks ++ said) := hblank.unbroken.append hsaid
  have hkept : Unbroken (trimEnd isBlank (blanks ++ said)) := by
    obtain ⟨tail, hparts, -⟩ := Text.exists_eq_trimEnd_append isBlank (blanks ++ said)
    exact fun c hc => hfull c (hparts ▸ List.mem_append_left tail hc)
  have hnothing : Unbroken [] := nofun
  have hrows : Rows (([] ++ rest) :: rear) :=
    (hcut₁.rows.of_append (List.cons_ne_nil _ _)).exchange_lead hfull hnothing
  refine ⟨_, rest, b₂, ⟨⟨_, hcut₁.rows⟩, hkept, hrows, htext, hcaret⟩, hlayout₂.trans hlayout, ?_, hrest, ?_⟩
  · rw [trimEnd_eq_nil_iff hblank hline.content, hstop]
  · have hcurrentLine : (reindentCurrentLine (.listing columns)).effect b.beginUndo =
        (.ok ((front.flatten ++ (blanks ++ said)).length : Int), b₁) := by
      rw [reindentCurrentLine, Step.effect_bind_look, hcurrent, hreindent, hmoved]
    rw [breakLine_listing, Step.effect_bind_look]
    apply Command.grouped_effect
    rw [Step.effect_bind_of_ok hcurrentLine, Step.effect_bind_change, Step.effect_bind_of_ok hdelete]

theorem breakLine_indented_of_error {indent content : List Char} (hline : b.Indented front indent content rear)
    (hcurrent : b.currentLine = front.length) {e : EditError}
    (hblanks : b.indentString (columns.column (rowText content)) = .error e) :
    (breakLine (.listing columns)).effect b = (.error e, b.beginUndo.endUndo) := by
  have hbegun : b.beginUndo.Indented front indent content rear := hline.of_text rfl
  have hreindent : (reindentCurrentLine (.listing columns)).effect b.beginUndo = (.error e, b.beginUndo) := by
    rw [reindentCurrentLine, Step.effect_bind_look, show b.beginUndo.currentLine = front.length from hcurrent]
    exact reindentLine_indented_of_error hbegun hblanks
  rw [breakLine_listing, Step.effect_bind_look]
  exact Command.grouped_effect (Step.effect_bind_of_error hreindent)

end Opening

/-- Whether the line end that the return key puts in joins a return: the carriage return above, if nothing but blanks
stands before the caret, or a line feed behind the caret and the indentation. The indentation of the caret's line is
between `start` and `stop`. -/
def JoinsReturn (b : Buffer) (start stop : Nat) : Prop :=
  b.caret ≤ stop ∧ SplitsBreak (b.text.take start) b.newline ∨
    SplitsBreak b.newline (b.text.drop (max b.caret.toNat stop))

instance (b : Buffer) (start stop : Nat) : Decidable (JoinsReturn b start stop) := inferInstanceAs (Decidable (_ ∨ _))

section

variable {b : Buffer} {front rear : List (List Char)} {before after indent content blanks : List Char}

theorem breakLine_broken (hmarker : columns.marker ≠ []) (hcode : 1 ≤ columns.code)
    (hcut : b.Cut front before after rear) (hunbroken : Unbroken before)
    (hline : b.Indented front indent content rear) (hrow : before ++ after = indent ++ content)
    (hblanks : b.indentString (columns.column (rowText content)) = .ok blanks) :
    let broken := (breakLine (.listing columns)).effect b
    Broken (JoinsReturn b front.flatten.length (front.flatten.length + indent.length)) (front.map rowText)
        (rear.map rowText) broken.2.lineTexts ∧
      ((∀ text, ∃ blanks, b.indentString (columns.column text) = .ok blanks) → broken.1 = .ok ()) := by
  intro broken
  obtain ⟨kept, rest, b', hparted, hlayout, hkept, hrest, hopens⟩ :=
    breakLine_opens hmarker hcode hcut hunbroken hline hrow hblanks
  have hjoins : Buffer.Joins (front.flatten ++ kept) b.newline (rest ++ rear.flatten) ↔
      JoinsReturn b front.flatten.length (front.flatten.length + indent.length) := by
    rw [Buffer.Joins, JoinsReturn, hparted.splitsBreak_iff, hkept, hrest, hcut.text_eq, List.append_assoc,
      List.take_left]
  obtain ⟨hbroken, hresult⟩ := startLine_parted hmarker hcode hparted (Buffer.isEnding_newline b)
  rw [hjoins] at hbroken
  have heffect : broken = _ := hopens
  rw [heffect]
  refine ⟨hbroken, fun hall => hresult fun text => ?_⟩
  rw [Buffer.indentString_of_layout hlayout]
  exact hall text

end

/-- The return key breaks the caret's line in two and leaves the others alone, unless the line end that it puts in joins
a return next to it. Then there are as many lines as before, and the line below may have been reindented. If there is no
memory for the indentation of the caret's line, the text stays as it is. -/
theorem breakLine_lineTexts (columns : Indent.Columns) (hmarker : columns.marker ≠ []) (hcode : 1 ≤ columns.code)
    {b : Buffer} (hcaret : 0 ≤ b.caret ∧ b.caret ≤ b.text.length)
    (hwhole : ¬ SplitsBreak (b.text.take b.caret.toNat) (b.text.drop b.caret.toNat)) :
    ∃ above line below start stop, b.lineTexts = above ++ line :: below ∧ b.currentLine = above.length ∧
      b.lineStart b.currentLine = .ok start ∧ b.indentEnd b.currentLine = .ok stop ∧
      let broken := (breakLine (.listing columns)).effect b
      match b.indentString (columns.column line) with
      | .error e => broken.1 = .error e ∧ broken.2.text = b.text
      | .ok _ =>
        (¬ JoinsReturn b start stop → broken.2.lineCount = b.lineCount + 1 ∧
          ∃ first second, broken.2.lineTexts = above ++ first :: second :: below) ∧
        (JoinsReturn b start stop → broken.2.lineCount = b.lineCount ∧
          ∃ changed below', broken.2.lineTexts = above ++ changed :: below' ∧ below'.length = below.length ∧
            below'.tail = below.tail) ∧
        ((∀ text, ∃ blanks, b.indentString (columns.column text) = .ok blanks) → broken.1 = .ok ()) := by
  obtain ⟨front, before, after, rear, hcut⟩ := Buffer.exists_cut hcaret
  have hrow : before ++ after = (before ++ after).takeWhile isBlank ++ (before ++ after).dropWhile isBlank :=
    List.takeWhile_append_dropWhile.symm
  generalize hindent : (before ++ after).takeWhile isBlank = indent at hrow
  generalize hcontent : (before ++ after).dropWhile isBlank = content at hrow
  have hline : b.Indented front indent content rear := by
    refine ⟨hrow ▸ hcut.rows, hrow ▸ hcut.text, hindent ▸ Text.takeWhile_allBlank _, ?_⟩
    rw [← hcontent]
    exact Text.takeWhile_dropWhile _ _
  have hcurrent : b.currentLine = (front.map rowText).length := by rw [hcut.current, List.length_map]
  have hstop : b.indentEnd b.currentLine = .ok (front.flatten.length + indent.length) := by
    rw [hcut.current, hline.indentEnd_eq]
  refine ⟨_, _, _, _, _, hline.lineTexts_eq, hcurrent, hcut.lineStart_eq, hstop, ?_⟩
  intro broken
  rw [columns.column_append_blanks hline.blank]
  cases hblanks : b.indentString (columns.column (rowText content)) with
  | error e =>
    have heffect : broken = (.error e, b.beginUndo.endUndo) := breakLine_indented_of_error hline hcut.current hblanks
    rw [heffect]
    exact ⟨rfl, rfl⟩
  | ok blanks =>
    obtain ⟨hbroken, hresult⟩ := breakLine_broken hmarker hcode hcut (hcut.unbroken hwhole) hline hrow hblanks
    simp only [← Buffer.length_lineTexts, hline.lineTexts_eq]
    refine ⟨fun hjoins => ?_, fun hjoins => ?_, hresult⟩
    · obtain ⟨first, second, hlines⟩ := hbroken.apart hjoins
      have hlines' : broken.2.lineTexts = _ := hlines
      refine ⟨?_, first, second, hlines⟩
      rw [hlines']
      simp only [List.length_append, List.length_cons]
      omega
    · obtain ⟨changed, below', hlines, hlength, htail⟩ := hbroken.joined hjoins
      have hlines' : broken.2.lineTexts = _ := hlines
      refine ⟨?_, changed, below', hlines, hlength, htail⟩
      rw [hlines']
      simp only [List.length_append, List.length_cons, hlength]

/-- An instruction among lines that end in different ways, with the caret behind it. -/
def mixedLines : Buffer :=
  { Buffer.ofText "a:\r\n  nop # x\rb\nc".toList (some 8) false 1 1024 with caret := 9, anchor := 0 }

theorem breakLine_lineTexts_mixedLines :
    ¬ JoinsReturn mixedLines 4 6 ∧
      let broken := (breakLine (.listing ⟨['#'], 16, 8⟩)).effect mixedLines
      broken.1 = .ok () ∧ broken.2.lineCount = mixedLines.lineCount + 1 ∧
        ∃ first second, broken.2.lineTexts = ["a:".toList] ++ first :: second :: ["b".toList, "c".toList] := by
  have hapart : ¬ JoinsReturn mixedLines 4 6 := by decide
  obtain ⟨above, line, below, start, stop, hlines, hcurrent, hstart, hstop, hbroken⟩ :=
    breakLine_lineTexts ⟨['#'], 16, 8⟩ (by decide) (by decide) (b := mixedLines) (by decide) (by decide)
  have hfour : mixedLines.lineStart mixedLines.currentLine = .ok 4 := by decide
  have hsix : mixedLines.indentEnd mixedLines.currentLine = .ok 6 := by decide
  have hgiven : mixedLines.lineTexts = ["a:".toList] ++ "  nop # x".toList :: ["b".toList, "c".toList] := by decide
  have hcount : above.length = 1 := by
    have hone : mixedLines.currentLine = 1 := by decide
    omega
  obtain rfl : 4 = start := Except.ok.inj (hfour.symm.trans hstart)
  obtain rfl : 6 = stop := Except.ok.inj (hsix.symm.trans hstop)
  obtain ⟨rfl, hrest⟩ := List.append_inj (hlines.symm.trans hgiven) hcount
  obtain ⟨rfl, rfl⟩ := List.cons.inj hrest
  have hblanks : mixedLines.indentString (Indent.Columns.column ⟨['#'], 16, 8⟩ "  nop # x".toList) =
      .ok (List.replicate 8 ' ') := by decide
  have hall (text : List Char) :
      ∃ blanks, mixedLines.indentString (Indent.Columns.column ⟨['#'], 16, 8⟩ text) = .ok blanks := by
    have hsound : Indent.Columns.Sound ⟨['#'], 16, 8⟩ := ⟨by decide, by decide, by decide⟩
    obtain ⟨hlower, hupper⟩ := Indent.Columns.column_bounds hsound text
    have hlimit : max (16 : Int) 8 ≤ mixedLines.room := by decide
    exact Buffer.indentString_isOk rfl (by decide) ⟨hlower, Int.le_trans hupper hlimit⟩ nofun
  rw [hblanks] at hbroken
  obtain ⟨hlines', -, hresult⟩ := hbroken
  exact ⟨hapart, hresult hall, hlines' hapart⟩

/-- An instruction in front of a line feed, in a buffer whose lines are to end with carriage returns. -/
def loneFeed : Buffer := { Buffer.ofText "nop\nx".toList (some 8) false 1 1024 with caret := 3, anchor := 3 }

/-- A carriage return that is put in before a line feed adds no line, and the line below is reindented. -/
theorem breakLine_loneFeed :
    (0 ≤ loneFeed.caret ∧ loneFeed.caret ≤ loneFeed.text.length) ∧
      ¬ SplitsBreak (loneFeed.text.take loneFeed.caret.toNat) (loneFeed.text.drop loneFeed.caret.toNat) ∧
      loneFeed.currentLine = 0 ∧ loneFeed.lineTexts = ["nop".toList, "x".toList] ∧
      let broken := (breakLine (.listing ⟨['#'], 32, 8⟩)).effect loneFeed
      broken.1 = .ok () ∧ broken.2.lineCount = loneFeed.lineCount ∧
        broken.2.lineTexts = ["        nop".toList, "        x".toList] := by
  refine ⟨by decide, by decide, by decide, by decide, ?_⟩
  decide +kernel

end Indenter

end ListingEditor
