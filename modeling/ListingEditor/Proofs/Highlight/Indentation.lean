import ListingEditor.Proofs.Indent.Exchange
import ListingEditor.Proofs.Listing.Indentation

/-!
Highlighting does not depend on indentation. To reindent a line changes the category of nothing but a number with
which the line starts.
-/

namespace ListingEditor

open Text (AllBlank isBlank)
open Listing (contentSpans withoutLead)

/-- The text around a line. -/
theorem Buffer.exists_around_line {b : Buffer} {line : Int} {text : List Char} (htext : b.lineText line = .ok text) :
    ∃ front rear, b.lineStart line = .ok front.length ∧ b.text = front ++ text ++ rear ∧
      b.indentEnd line = .ok (front.length + (text.takeWhile isBlank).length) ∧ Unbroken text ∧ rowText rear = [] := by
  cases hstart : b.lineStart line with
  | error e =>
    rw [lineText, hstart] at htext
    cases htext
  | ok start =>
    have hlength : (b.text.take start).length = start := by
      rw [List.length_take, Nat.min_eq_left (lineStart_le hstart)]
    have hsplit : b.text = b.text.take start ++ b.text.drop start := (List.take_append_drop ..).symm
    have hstart' := hstart
    rw [← hlength] at hstart'
    have hline : text = rowText (b.text.drop start) := Except.ok.inj (htext.symm.trans (lineText_eq hsplit hstart'))
    have hwhole : text ++ (b.text.drop start).dropWhile (fun c => !Text.isReturn c) = b.text.drop start := by
      rw [hline]
      exact List.takeWhile_append_dropWhile
    have hrange : b.range start (b.endOfLineAt start) = text := by
      rw [lineText, hstart] at htext
      exact Except.ok.inj htext
    refine ⟨b.text.take start, (b.text.drop start).dropWhile fun c => !Text.isReturn c, by rw [hlength], ?_, ?_, ?_,
      Text.takeWhile_dropWhile _ _⟩
    · rw [List.append_assoc, hwhole, ← hsplit]
    · rw [indentEnd, hstart, hlength, ← hrange]
      rfl
    · rw [hline]
      intro c hc
      simpa using List.mem_takeWhile_imp hc

namespace Indenter

/-- Whatever the indenter and however it ends, reindenting a line does nothing to the text but exchange blanks. -/
theorem reindentLine_state (indenter : Indenter) {b : Buffer} {line : Int} {start old : Nat}
    (hstart : b.lineStart line = .ok start) (hold : b.indentEnd line = .ok old) :
    ((indenter.reindentLine line).effect b).2 = b ∨
      ∃ blanks, AllBlank blanks ∧ ((indenter.reindentLine line).effect b).2 = b.replaceRange start old blanks := by
  rw [reindentLine, Step.effect_bind_ask_of_ok (f := fun b : Buffer => b.lineStart line) hstart,
    Step.effect_bind_look, Step.effect_bind_ask_of_ok (f := fun b : Buffer => b.indentEnd line) hold,
    Step.effect_bind_report]
  cases hcolumn : indenter.findColumn b line with
  | error e =>
    rw [Step.effect_bind_ask_of_error (f := fun b => indenter.findColumn b line) hcolumn]
    exact .inl rfl
  | ok column =>
    rw [Step.effect_bind_ask_of_ok (f := fun b => indenter.findColumn b line) hcolumn]
    cases column with
    | none => exact .inl rfl
    | some column =>
      dsimp only
      cases hblanks : b.indentString column with
      | error e =>
        rw [Step.effect_bind_ask_of_error (f := fun b : Buffer => b.indentString column) hblanks]
        exact .inl rfl
      | ok blanks =>
        refine .inr ⟨blanks, (Buffer.indentString_blank hblanks).1, ?_⟩
        rw [Step.effect_bind_ask_of_ok (f := fun b : Buffer => b.indentString column) hblanks,
          Step.effect_bind_report, Step.effect_bind_change]
        cases hnew : (b.replaceRange start old blanks).indentEnd line with
        | error e => rw [Step.effect_bind_ask_of_error (f := fun b : Buffer => b.indentEnd line) hnew]
        | ok new =>
          rw [Step.effect_bind_ask_of_ok (f := fun b : Buffer => b.indentEnd line) hnew, Step.effect_bind_look,
            Step.effect_bind_report, Step.effect_pure]

/-- The line that reindenting has changed, at its old place. -/
theorem reindentLine_content (indenter : Indenter) {b : Buffer} {line : Int} {text : List Char}
    (htext : b.lineText line = .ok text) :
    let b' := ((indenter.reindentLine line).effect b).2
    ∃ front blanks rear, b.lineStart line = .ok front.length ∧ b.text = front ++ text ++ rear ∧ AllBlank blanks ∧
      b'.text = front ++ (blanks ++ text.dropWhile isBlank) ++ rear ∧
      b'.range front.length (b'.endOfLineAt front.length) = blanks ++ text.dropWhile isBlank := by
  intro b'
  obtain ⟨front, rear, hstart, hwhole, hold, hunbroken, hrear⟩ := Buffer.exists_around_line htext
  have hsplit : text.takeWhile isBlank ++ text.dropWhile isBlank = text := List.takeWhile_append_dropWhile
  obtain ⟨blanks, hblank, hnew⟩ : ∃ blanks, AllBlank blanks ∧
      b'.text = front ++ (blanks ++ text.dropWhile isBlank) ++ rear := by
    obtain hsame | ⟨blanks, hblank, hedited⟩ := indenter.reindentLine_state hstart hold
    · refine ⟨text.takeWhile isBlank, Text.takeWhile_allBlank text, ?_⟩
      rw [hsplit, ← hwhole]
      exact congrArg Buffer.text hsame
    · refine ⟨blanks, hblank, (congrArg Buffer.text hedited).trans ?_⟩
      have hparts : b.text = front ++ text.takeWhile isBlank ++ (text.dropWhile isBlank ++ rear) := by
        rw [← List.append_assoc, List.append_assoc front, hsplit, hwhole]
      rw [b.replaceRange_middle blanks hparts]
      simp only [List.append_assoc]
  have hcontent : Buffer.Unbroken (text.dropWhile isBlank) :=
    fun c hc => hunbroken c ((List.dropWhile_sublist _).subset hc)
  refine ⟨front, blanks, rear, hstart, hwhole, hblank, hnew, ?_⟩
  rw [List.append_assoc] at hnew
  rw [Buffer.range_endOfLineAt hnew]
  change Buffer.rowText (blanks ++ text.dropWhile isBlank ++ rear) = _
  rw [Buffer.rowText_append (hblank.unbroken.append hcontent), hrear, List.append_nil]

end Indenter

/-- Highlighting does not depend on indentation. Behind any blanks a line has the same regions, a line number at its
start apart; behind blanks that both end in a space, or both do not, it has the same with that one. So reindenting a
line, by any indenter, changes the category of nothing else in it. -/
theorem contentSpans_reindent {marker : Char} (hmarker : isBlank marker = false) {indent other : List Char}
    (hindent : AllBlank indent) (hother : AllBlank other) (sourceInComments : Bool) (content : List Char) :
    withoutLead (contentSpans marker sourceInComments indent content) =
        withoutLead (contentSpans marker sourceInComments other content) ∧
      ((indent.getLast? = some ' ' ↔ other.getLast? = some ' ') →
        contentSpans marker sourceInComments indent content = contentSpans marker sourceInComments other content) ∧
      ∀ (indenter : Indenter) (b : Buffer) (line : Int) (text : List Char), b.lineText line = .ok text →
        let b' := ((indenter.reindentLine line).effect b).2
        ∃ front blanks rear, b.lineStart line = .ok front.length ∧ b.text = front ++ text ++ rear ∧
          b'.text = front ++ (blanks ++ text.dropWhile isBlank) ++ rear ∧
          b'.range front.length (b'.endOfLineAt front.length) = blanks ++ text.dropWhile isBlank ∧
          withoutLead (contentSpans marker sourceInComments blanks (text.dropWhile isBlank)) =
            withoutLead (contentSpans marker sourceInComments (text.takeWhile isBlank) (text.dropWhile isBlank)) := by
  have hsame {indent other : List Char} (hindent : AllBlank indent) (hother : AllBlank other) (content : List Char) :
      withoutLead (contentSpans marker sourceInComments indent content) =
        withoutLead (contentSpans marker sourceInComments other content) := by
    rw [Listing.withoutLead_contentSpans hmarker hindent, Listing.withoutLead_contentSpans hmarker hother]
  refine ⟨hsame hindent hother content, fun hspace => Listing.contentSpans_congr hmarker hindent hother hspace content,
    fun indenter b line text htext => ?_⟩
  obtain ⟨front, blanks, rear, hstart, hwhole, hblank, hnew, hline⟩ := indenter.reindentLine_content htext
  exact ⟨front, blanks, rear, hstart, hwhole, hnew, hline, hsame hblank (Text.takeWhile_allBlank text) _⟩

/-- A number and the name of an opcode behind it. -/
def numberedName : List Char := ['7', ' ', 'N', 'O', 'P']

/-- Behind a space the number is a line number, behind a tab it is none; the name stays what it is. -/
theorem contentSpans_reindent_numberedName :
    AllBlank [' '] ∧ AllBlank ['\t'] ∧
      contentSpans '#' false [' '] numberedName ≠ contentSpans '#' false ['\t'] numberedName ∧
      withoutLead (contentSpans '#' false [' '] numberedName) =
        withoutLead (contentSpans '#' false ['\t'] numberedName) := by
  have hspace : AllBlank [' '] := by decide
  have htab : AllBlank ['\t'] := by decide
  have hmarker : isBlank '#' = false := by decide
  refine ⟨hspace, htab, ?_, (contentSpans_reindent hmarker hspace htab false numberedName).1⟩
  have hnumber : Listing.lineNumberAt [' '].getLast? (Listing.code ['#'] numberedName) = some 1 := by decide
  have hnone : Listing.lineNumberAt ['\t'].getLast? (Listing.code ['#'] numberedName) = none := by decide
  rw [Listing.contentSpans_eq hmarker hspace, Listing.contentSpans_eq hmarker htab, hnumber, hnone]
  exact List.cons_ne_self _ _

end ListingEditor
