import ListingEditor.Proofs.Buffer.Indentation
import ListingEditor.Proofs.Highlight.Request

/-!
The styles of one line of a buffer. A buffer ends its lines at returns only, while styling also cuts them at the
other line breaks; each piece of a line is styled as if it stood alone.
-/

namespace ListingEditor.Highlighter

open Listing (Span Ordered)

/-- The style of the region that holds a place, and zero where there is none. -/
def styleAt (spans : List Span) (place : Int) : Nat :=
  ((spans.find? fun span => span.start ≤ place && place < span.stop).map (·.category.style)).getD 0

/-- The styles of a text that is classified as one line. -/
def regionStyles (marker : Char) (sourceInComments : Bool) (text : List Char) : List Nat :=
  (List.range text.length).map fun place : Nat =>
    styleAt (Listing.classify [marker] sourceInComments text) place

theorem styleAt_eq_zero_of_lt {start stop place : Int} {spans : List Span}
    (hordered : Ordered start stop spans) (hlt : place < start) : styleAt spans place = 0 := by
  have hnone : spans.find? (fun span => span.start ≤ place && place < span.stop) = none := by
    rw [List.find?_eq_none]
    intro span hspan
    have hbounds := hordered.bounds span hspan
    simp only [Bool.and_eq_true, decide_eq_true_eq]
    omega
  rw [styleAt, hnone]
  rfl

theorem styleAt_cons_of_mem {span : Span} {spans : List Span} {place : Int}
    (hstart : span.start ≤ place) (hstop : place < span.stop) :
    styleAt (span :: spans) place = span.category.style := by
  simp [styleAt, hstart, hstop]

theorem styleAt_cons_of_not_mem {span : Span} {spans : List Span} {place : Int}
    (hplace : place < span.start ∨ span.stop ≤ place) :
    styleAt (span :: spans) place = styleAt spans place := by
  have hout : (span.start ≤ place && place < span.stop) = false := by
    simp only [Bool.and_eq_false_iff, decide_eq_false_iff_not]
    omega
  rw [styleAt, List.find?_cons, hout]
  rfl

/-- Every character between two places has the style of the region that holds it. -/
theorem spanStyles_getElem? {start stop : Int} {spans : List Span} (hordered : Ordered start stop spans)
    {i : Nat} (hi : start + i < stop) :
    (spanStyles start stop spans)[i]? = some (styleAt spans (start + i)) := by
  induction spans generalizing start i with
  | nil =>
    rw [spanStyles_nil, List.getElem?_replicate, if_pos (by omega)]
    rfl
  | cons span spans ih =>
    obtain ⟨hstart, hproper, hrest⟩ := hordered
    rw [spanStyles_cons, List.append_assoc]
    by_cases hfront : start + i < span.start
    · have hzero := styleAt_eq_zero_of_lt hrest (show start + i < span.stop by omega)
      rw [List.getElem?_append_left (by rw [List.length_replicate]; omega), List.getElem?_replicate,
        if_pos (by omega), styleAt_cons_of_not_mem (.inl hfront), hzero]
    rw [List.getElem?_append_right (by rw [List.length_replicate]; omega), List.length_replicate]
    by_cases hinside : start + i < span.stop
    · rw [List.getElem?_append_left (by rw [List.length_replicate]; omega), List.getElem?_replicate,
        if_pos (by omega), styleAt_cons_of_mem (by omega) hinside]
    · rw [List.getElem?_append_right (by rw [List.length_replicate]; omega), List.length_replicate,
        ih hrest (by omega), styleAt_cons_of_not_mem (.inr (by omega))]
      congr 2
      omega

theorem spanStyles_classify (marker : Char) (sourceInComments : Bool) (text : List Char) :
    spanStyles 0 text.length (Listing.classify [marker] sourceInComments text) =
      regionStyles marker sourceInComments text := by
  have hordered := Listing.classify_ordered marker sourceInComments text
  apply List.ext_getElem?
  intro i
  by_cases hi : i < text.length
  · simp [regionStyles, spanStyles_getElem? hordered (show (0 : Int) + i < text.length by omega), hi]
  · have hlength := spanStyles_length hordered
    rw [List.getElem?_eq_none (by omega), List.getElem?_eq_none (by simp [regionStyles]; omega)]

/-- The break at the end of a line has no style. -/
theorem lineStyles_append_returns (marker : Char) (sourceInComments : Bool) {text returns : List Char}
    (htext : ∀ c ∈ text, Text.isReturn c = false) (hreturns : ∀ c ∈ returns, Text.isReturn c = true) :
    lineStyles marker sourceInComments (text ++ returns) =
      regionStyles marker sourceInComments text ++ List.replicate returns.length 0 := by
  have hordered := Listing.classify_ordered marker sourceInComments text
  rw [lineStyles, Text.trimEnd_append htext hreturns, spanStyles_extend hordered (by rw [List.length_append]; omega),
    spanStyles_classify, List.length_append]
  congr 2
  omega

theorem lineStyles_of_no_return (marker : Char) (sourceInComments : Bool) {text : List Char}
    (htext : ∀ c ∈ text, Text.isReturn c = false) :
    lineStyles marker sourceInComments text = regionStyles marker sourceInComments text := by
  have hnone : ∀ c ∈ ([] : List Char), Text.isReturn c = true := by simp
  simpa using lineStyles_append_returns marker sourceInComments htext hnone

theorem flatMap_lines_of_unbroken (marker : Char) (sourceInComments : Bool) {text : List Char}
    (htext : ∀ c ∈ text, Text.isLineBreak c = false) :
    (Text.lines text).flatMap (regionStyles marker sourceInComments) =
      regionStyles marker sourceInComments text := by
  by_cases hempty : text = []
  · subst hempty
    rfl
  · rw [Text.lines_of_unbroken htext hempty, List.flatMap_singleton]

/-- The last piece of a line, up to the return behind it. -/
theorem take_textStyles_of_unbroken (marker : Char) (sourceInComments : Bool) {text tail : List Char}
    (htext : ∀ c ∈ text, Text.isLineBreak c = false)
    (htail : ∀ c, tail.head? = some c → Text.isReturn c = true) :
    (textStyles marker sourceInComments (text ++ tail)).take text.length =
      regionStyles marker sourceInComments text := by
  have hlength : (regionStyles marker sourceInComments text).length = text.length := by simp [regionStyles]
  have hbody : ∀ c ∈ text, Text.isReturn c = false := fun c hc =>
    Text.isReturn_eq_false_of_not_isLineBreak (htext c hc)
  have hline (returns rest : List Char) (hreturns : ∀ c ∈ returns, Text.isReturn c = true)
      (hlines : Text.lines (text ++ tail) = (text ++ returns) :: Text.lines rest) :
      (textStyles marker sourceInComments (text ++ tail)).take text.length =
        regionStyles marker sourceInComments text := by
    rw [textStyles, hlines, List.flatMap_cons, lineStyles_append_returns _ _ hbody hreturns,
      List.append_assoc, List.take_left' hlength]
  cases tail with
  | nil =>
    by_cases hempty : text = []
    · subst hempty
      rfl
    · apply hline [] [] (by simp)
      rw [List.append_nil, Text.lines_of_unbroken htext hempty]
      rfl
  | cons c tail =>
    have hreturn : Text.isReturn c = true := htail c rfl
    by_cases hsplit : Text.SplitsBreak [c] tail
    · obtain ⟨hlast, hhead⟩ := hsplit
      obtain ⟨rest, rfl⟩ := List.head?_eq_some_iff.mp hhead
      obtain rfl : c = '\r' := by simpa using hlast
      apply hline ['\r', '\n'] rest (by simp [Text.isReturn])
      exact Text.lines_unbroken_append htext rfl
    · apply hline [c] tail (by simpa using hreturn)
      exact Text.lines_append_break htext (Text.isLineBreak_of_isReturn hreturn) hsplit

/-- Up to the return that ends it, a line has the styles of its pieces. -/
theorem take_textStyles_line (marker : Char) (sourceInComments : Bool) {text tail : List Char}
    (htext : ∀ c ∈ text, Text.isReturn c = false)
    (htail : ∀ c, tail.head? = some c → Text.isReturn c = true) :
    (textStyles marker sourceInComments (text ++ tail)).take text.length =
      (Text.lines text).flatMap (regionStyles marker sourceInComments) := by
  induction hn : text.length using Nat.strong_induction_on generalizing text with
  | _ n ih =>
  obtain hall | ⟨piece, c, rest, rfl, hpiece, hbreak⟩ := Text.exists_first_piece text
  · rw [← hn, take_textStyles_of_unbroken _ _ hall htail, flatMap_lines_of_unbroken _ _ hall]
  · simp only [List.mem_append, List.mem_cons] at htext
    -- a break that is no return ends a piece whatever follows it
    have hcut (more : List Char) :
        Text.lines (piece ++ c :: more) = (piece ++ [c]) :: Text.lines more := by
      apply Text.lines_append_break hpiece hbreak
      rintro ⟨hlast, _⟩
      have hreturn := htext c (by simp)
      rw [List.getLast?_singleton, Option.some.injEq] at hlast
      simp [hlast, Text.isReturn] at hreturn
    have hfirst : lineStyles marker sourceInComments (piece ++ [c]) =
        regionStyles marker sourceInComments (piece ++ [c]) := by
      apply lineStyles_of_no_return
      intro d hd
      apply htext d
      simp only [List.mem_append, List.mem_singleton] at hd
      tauto
    have hlength : n = (lineStyles marker sourceInComments (piece ++ [c])).length + rest.length := by
      simp only [← hn, lineStyles_length, List.length_append, List.length_cons, List.length_nil]
      omega
    have hlater := ih rest.length (by simp at hn; omega) (fun d hd => htext d (by simp [hd])) rfl
    rw [hlength, textStyles, List.append_assoc, List.cons_append, hcut, hcut, List.flatMap_cons,
      List.flatMap_cons, List.take_length_add_append, ← hlater, hfirst]
    rfl

theorem adjustStart_zero (marker : List Char) (sourceInComments : Bool) (b : Buffer) :
    adjustStart (.listing marker sourceInComments) b 0 = .ok 0 :=
  adjustStart_of_mem_lineStarts marker sourceInComments List.mem_cons_self

/-- A request for all of a text gives it its styles. -/
theorem styleText_all (marker : Char) (sourceInComments : Bool) {b : Buffer}
    (hcovers : b.styles.length = b.text.length) (hstyled : 0 ≤ b.endStyled)
    (hok : ((styleText (.listing [marker] sourceInComments) 0 b.length).run b).result = .ok ()) :
    ((styleText (.listing [marker] sourceInComments) 0 b.length).run b).state.styles =
      textStyles marker sourceInComments b.text := by
  have hfirst := adjustStart_zero [marker] sourceInComments b
  obtain ⟨middle, -, hstate, hall⟩ := styleText_listing (show b.text = [] ++ b.text from rfl)
    Text.endsLine_nil hfirst hcovers hstyled rfl (Nat.zero_le b.length) (Nat.le_refl _)
  obtain rfl := hall hok
  rw [hstate, Buffer.length, List.take_length, List.drop_eq_nil_of_le (by omega), List.append_nil,
    List.take_of_length_le (by rw [textStyles_length])]

/-- The text of a line, and the part of the styles of a whole text that lies between its ends. -/
theorem exists_line_styles (marker : Char) (sourceInComments : Bool) (b : Buffer) (line : Nat) :
    ∃ (start stop : Nat) (text : List Char), b.lineStart line = .ok start ∧
      b.lineEnd line = .ok stop ∧ b.lineText line = .ok text ∧
      Text.slice (textStyles marker sourceInComments b.text) start stop =
        (Text.lines text).flatMap (regionStyles marker sourceInComments) := by
  obtain ⟨front, rear, htext, hat⟩ := Buffer.exists_lineAt b.text line
  have hstart := hat.lineStart htext
  have hdrop : b.text.drop front.length = rear := by rw [htext, List.drop_left]
  refine ⟨front.length, b.endOfLineAt front.length, rear.takeWhile fun c => !Text.isReturn c, hstart, ?_,
    Buffer.lineText_eq htext hstart, ?_⟩
  · rw [Buffer.lineEnd, hstart]
    rfl
  · rw [Text.slice_natCast, Buffer.endOfLineAt, hdrop]
    cases hat with
    | behind hline => simp [Text.lines]
    | inside hstarts hline =>
      have hbody : ∀ c ∈ rear.takeWhile (fun c => !Text.isReturn c), Text.isReturn c = false := by
        intro c hc
        simpa using List.mem_takeWhile_imp hc
      have htail : ∀ c, (rear.dropWhile fun c => !Text.isReturn c).head? = some c →
          Text.isReturn c = true := by
        intro c hc
        have hhead := List.head?_dropWhile_not (fun c => !Text.isReturn c) rear
        rw [hc] at hhead
        simpa using hhead
      rw [← take_textStyles_line marker sourceInComments hbody htail, List.takeWhile_append_dropWhile,
        htext, textStyles_append _ _ _ hstarts.ends, List.drop_take,
        List.drop_left' (textStyles_length ..), Nat.add_sub_cancel_left]

/-- After a request for all of a buffer, each line has the styles of its pieces: those of the line as a whole if
no break stands inside it. The request returns unless the text has more characters than there is memory for. -/
theorem styleText_lines (marker : Char) (sourceInComments : Bool) {b : Buffer}
    (hcovers : b.styles.length = b.text.length) (hstyled : 0 ≤ b.endStyled) :
    let styled := (styleText (.listing [marker] sourceInComments) 0 b.length).run b
    (b.length ≤ b.room → styled.result = .ok ()) ∧
      (styled.result = .ok () → ∀ line : Nat, ∃ (start stop : Nat) (text : List Char),
        b.lineStart line = .ok start ∧ b.lineEnd line = .ok stop ∧ b.lineText line = .ok text ∧
        Text.slice styled.state.styles start stop =
          (Text.lines text).flatMap (regionStyles marker sourceInComments) ∧
        ((∀ c ∈ text, Text.isLineBreak c = false) →
          Text.slice styled.state.styles start stop = regionStyles marker sourceInComments text)) := by
  intro styled
  constructor
  · exact styleText_result_of_le (adjustStart_zero [marker] sourceInComments b) (Nat.zero_le _)
      (Nat.le_refl _)
  · intro hok line
    have hstyles : styled.state.styles = textStyles marker sourceInComments b.text :=
      styleText_all marker sourceInComments hcovers hstyled hok
    obtain ⟨start, stop, text, hstart, hstop, htext, hpieces⟩ :=
      exists_line_styles marker sourceInComments b line
    rw [← hstyles] at hpieces
    refine ⟨start, stop, text, hstart, hstop, htext, hpieces, fun hwhole => ?_⟩
    rw [hpieces, flatMap_lines_of_unbroken _ _ hwhole]

/-- A line that ends in a comment, in front of another one. -/
def twoLines : Buffer := .ofText "0 # a\r\n# b".toList none false 2 1024

theorem styleText_lines_twoLines :
    twoLines.styles.length = twoLines.text.length ∧ 0 ≤ twoLines.endStyled ∧
      ∃ (start stop : Nat) (text : List Char), twoLines.lineStart 0 = .ok start ∧
        twoLines.lineEnd 0 = .ok stop ∧ twoLines.lineText 0 = .ok text ∧ text = "0 # a".toList ∧
        Text.slice ((styleText (.listing ['#'] false) 0 twoLines.length).run twoLines).state.styles
          start stop = regionStyles '#' false text := by
  have hcovers : twoLines.styles.length = twoLines.text.length := by decide +kernel
  obtain ⟨hreturns, hlines⟩ := styleText_lines '#' false hcovers (Int.le_refl 0)
  obtain ⟨start, stop, text, hstart, hstop, htext, -, hwhole⟩ := hlines (hreturns (by decide +kernel)) 0
  have hfirst : twoLines.lineText 0 = .ok "0 # a".toList := by decide +kernel
  obtain rfl := Except.ok.inj (htext.symm.trans hfirst)
  have hunbroken : ("0 # a".toList.all fun c => !Text.isLineBreak c) = true := by decide +kernel
  refine ⟨hcovers, Int.le_refl 0, start, stop, _, hstart, hstop, htext, rfl, hwhole fun c hc => ?_⟩
  simpa using List.all_eq_true.mp hunbroken c hc

/-- A comment with a vertical tab in it, which ends no line of a buffer. -/
def tornComment : Buffer := .ofText "# a\x0bb".toList (some 8) false 2 1024

/-- A comment need not be styled as one up to the end of its line. -/
theorem styleText_tornComment :
    tornComment.lineStart 0 = .ok 0 ∧ tornComment.lineEnd 0 = .ok 5 ∧
      tornComment.lineText 0 = .ok tornComment.text ∧
      regionStyles '#' false tornComment.text = [7, 7, 7, 7, 7] ∧
      ((styleText (.listing ['#'] false) 0 tornComment.length).run tornComment).result = .ok () ∧
      ((styleText (.listing ['#'] false) 0 tornComment.length).run tornComment).state.styles =
        [7, 7, 7, 7, 0] := by
  decide +kernel

end ListingEditor.Highlighter
