import ListingEditor.Proofs.Highlight.Request
import ListingEditor.Proofs.Text.Blank

/-!
How classification and styling cover a text. The regions of a text lie one behind the other and outside its line
breaks, they come apart where the text does, and the runs between them leave nothing out. A request to style a stretch
of whole lines therefore touches nothing but the styles of that stretch.
-/

namespace ListingEditor

namespace Text

/-- A cut of a text where one of its lines ends. -/
def Divides (front rear : List Char) : Prop := rear = [] ∨ EndsPiece front ∧ ¬ SplitsBreak front rear

theorem Divides.lines_append {front rear : List Char} (hdivides : Divides front rear) :
    lines (front ++ rear) = lines front ++ lines rear := by
  obtain rfl | ⟨hends, hsplit⟩ := hdivides
  · rw [List.append_nil, lines, List.append_nil]
  · exact lines_append_of_endsPiece hends hsplit

end Text

namespace Listing

theorem classifyLines_append (marker : List Char) (sourceInComments : Bool) (offset : Int)
    (front rear : List (List Char)) :
    classifyLines marker sourceInComments offset (front ++ rear) =
      classifyLines marker sourceInComments offset front ++
        classifyLines marker sourceInComments (offset + front.flatten.length) rear := by
  induction front generalizing offset with
  | nil => rw [List.nil_append, List.flatten_nil, List.length_nil, Int.natCast_zero, Int.add_zero]; rfl
  | cons line front ih =>
    have hoffset : offset + (line :: front).flatten.length = offset + line.length + front.flatten.length := by
      rw [List.flatten_cons, List.length_append]
      omega
    rw [List.cons_append, classifyLines, ih, hoffset, classifyLines, List.append_assoc]

/-- Where a line ends, classifying a text comes apart into classifying its two parts. -/
theorem classifyText_append (marker : List Char) (sourceInComments : Bool) (offset : Int) {front rear : List Char}
    (hdivides : Text.Divides front rear) :
    classifyText marker sourceInComments offset (front ++ rear) =
      classifyText marker sourceInComments offset front ++
        classifyText marker sourceInComments (offset + front.length) rear := by
  rw [classifyText, hdivides.lines_append, classifyLines_append, Text.lines_flatten]
  rfl

/-- No region of lines holds a return. -/
theorem isReturn_of_mem_classifyLines {marker : Char} {sourceInComments : Bool} {offset : Int}
    {lines : List (List Char)} (hlines : ∀ line ∈ lines, Text.ReturnsLast line) {span : Span}
    (hspan : span ∈ classifyLines [marker] sourceInComments offset lines) {place : Nat} {c : Char}
    (hc : lines.flatten[place]? = some c) (hstart : span.start ≤ offset + place)
    (hstop : offset + place < span.stop) : Text.isReturn c = false := by
  induction lines generalizing offset place with
  | nil => cases hspan
  | cons line lines ih =>
    obtain ⟨⟨body, returns, rfl, hbody, hreturns⟩, hrest⟩ := List.forall_mem_cons.mp hlines
    rw [List.flatten_cons] at hc
    obtain hhere | hlater := List.mem_append.mp hspan
    · -- what is classified is the line without its returns
      rw [Text.trimEnd_append hbody hreturns] at hhere
      obtain ⟨region, hregion, rfl⟩ := List.mem_map.mp hhere
      have hbounds := (classify_ordered marker sourceInComments body).bounds region hregion
      have hplace : place < body.length := by
        simp only [Span.shift] at hstop
        omega
      rw [List.append_assoc, List.getElem?_append_left hplace] at hc
      exact hbody c (List.mem_of_getElem? hc)
    · have hordered := (Highlighter.classifyLines_ordered marker sourceInComments
        (offset + (body ++ returns).length) lines).1
      have hbounds := hordered.bounds span hlater
      have hplace : (body ++ returns).length ≤ place := by omega
      rw [List.getElem?_append_right hplace] at hc
      exact ih hrest hlater hc (by omega) (by omega)

theorem isReturn_of_mem_classifyText {marker : Char} {sourceInComments : Bool} {offset : Int} {text : List Char}
    {span : Span} (hspan : span ∈ classifyText [marker] sourceInComments offset text) {place : Nat} {c : Char}
    (hc : text[place]? = some c) (hstart : span.start ≤ offset + place) (hstop : offset + place < span.stop) :
    Text.isReturn c = false := by
  rw [← Text.lines_flatten text] at hc
  exact isReturn_of_mem_classifyLines (fun _ => Text.returnsLast_of_mem_lines) hspan hc hstart hstop

/-- Regions in order lie one behind the other. -/
theorem Ordered.apart {start stop : Int} {spans : List Span} (hordered : Ordered start stop spans) :
    spans.Pairwise fun earlier later => earlier.stop ≤ later.start := by
  induction spans generalizing start with
  | nil => exact .nil
  | cons span spans ih =>
    obtain ⟨-, -, hrest⟩ := hordered
    exact .cons (fun later hlater => (hrest.bounds later hlater).1) (ih hrest)

theorem Category.style_le (category : Category) : category.style ≤ 8 := by
  cases category <;> simp [style]

end Listing

namespace Highlighter

open Listing (Span)

theorem style_le_of_mem_runsBetween {start stop : Int} {spans : List Span} {run : StyleRun}
    (hrun : run ∈ runsBetween start stop spans) : run.style ≤ 8 := by
  have hgap {start stop : Int} (hrun : run ∈ if start < stop then [⟨start, stop - start, 0⟩] else []) :
      run.style ≤ 8 := by
    split at hrun
    · rw [List.mem_singleton.mp hrun]
      exact Nat.zero_le 8
    · cases hrun
  induction spans generalizing start with
  | nil => exact hgap hrun
  | cons span spans ih =>
    obtain hbefore | hrest := List.mem_append.mp hrun
    · exact hgap hbefore
    · obtain rfl | hlater := List.mem_cons.mp hrest
      · exact span.category.style_le
      · exact ih hlater

/-- A request that begins where a line starts changes the styles of its stretch only, and gives the stretch the styles
of its runs unless it fails. -/
theorem styleText_frame {marker : Char} {sourceInComments : Bool} {b : Buffer} {start stop : Nat}
    (hmem : start ∈ Buffer.lineStarts b.text) (hle : start ≤ stop) (hstop : stop ≤ b.text.length)
    (hcovers : b.styles.length = b.text.length) :
    let styled := (styleText (.listing [marker] sourceInComments) start stop).run b
    styled.state = { b with styles := styled.state.styles, endStyled := styled.state.endStyled } ∧
      (∀ place : Nat, place < start ∨ stop ≤ place → styled.state.styles[place]? = b.styles[place]?) ∧
      (styled.result = .ok () →
        Text.slice styled.state.styles start stop =
          runStyles (runs (.listing [marker] sourceInComments) b start stop)) := by
  intro styled
  have hfirst := adjustStart_of_mem_lineStarts [marker] sourceInComments hmem
  obtain ⟨middle, hstart, hmiddle, hstate, hall⟩ := styleText_painted hfirst hcovers hle hstop
  have hstate : styled.state = _ := hstate
  have hfront : (b.styles.take start).length = start := by
    rw [List.length_take]
    omega
  have hpainted : ((textStyles marker sourceInComments ((b.text.take stop).drop start)).take (middle - start)).length =
      middle - start := by
    rw [List.length_take, textStyles_length, List.length_drop, List.length_take]
    omega
  rw [hstate]
  refine ⟨rfl, fun place hplace => ?_, fun hok => ?_⟩
  · obtain hbefore | hbehind := hplace
    · rw [List.append_assoc, List.getElem?_append_left (by omega), List.getElem?_take_of_lt hbefore]
    · rw [List.getElem?_append_right (by rw [List.length_append]; omega), List.length_append, hfront, hpainted,
        List.getElem?_drop]
      congr 1
      omega
  · obtain rfl := hall hok
    have hwhole : (textStyles marker sourceInComments ((b.text.take middle).drop start)).length ≤ middle - start := by
      rw [textStyles_length, List.length_drop, List.length_take]
      omega
    rw [(runs_listing marker sourceInComments b hle hstop).2, Text.slice_natCast,
      List.take_left' (by rw [List.length_append]; omega), List.drop_left' hfront, List.take_of_length_le hwhole]

/-- Classification and styling tile a text. The regions lie one behind the other inside the text, hold no return, and
come apart where a line ends; the runs of a stretch follow each other from its start to its end; and a request that
begins where a line starts returns, if there is memory for the text, having changed the styles of its stretch only. -/
theorem styling_tiles (marker : Char) (sourceInComments : Bool) :
    (∀ (offset : Int) (text : List Char),
      let spans := Listing.classifyText [marker] sourceInComments offset text
      (spans.Pairwise fun earlier later => earlier.stop ≤ later.start) ∧
      ∀ span ∈ spans, offset ≤ span.start ∧ span.start < span.stop ∧ span.stop ≤ offset + text.length ∧
        ∀ (place : Nat) (c : Char), text[place]? = some c → span.start ≤ offset + place →
          offset + place < span.stop → Text.isReturn c = false) ∧
    (∀ (offset : Int) (front rear : List Char), Text.Divides front rear →
      Listing.classifyText [marker] sourceInComments offset (front ++ rear) =
        Listing.classifyText [marker] sourceInComments offset front ++
          Listing.classifyText [marker] sourceInComments (offset + front.length) rear) ∧
    ∀ (b : Buffer) (start stop : Nat), start ≤ stop → stop ≤ b.length →
      Consecutive start stop (runs (.listing [marker] sourceInComments) b start stop) ∧
      (∀ run ∈ runs (.listing [marker] sourceInComments) b start stop, run.style ≤ 8) ∧
      (start ∈ Buffer.lineStarts b.text → b.styles.length = b.length →
        let styled := (styleText (.listing [marker] sourceInComments) start stop).run b
        (b.length ≤ b.room → styled.result = .ok ()) ∧
        styled.state = { b with styles := styled.state.styles, endStyled := styled.state.endStyled } ∧
        (∀ place : Nat, place < start ∨ stop ≤ place → styled.state.styles[place]? = b.styles[place]?) ∧
        (styled.result = .ok () →
          Text.slice styled.state.styles start stop =
            runStyles (runs (.listing [marker] sourceInComments) b start stop))) := by
  refine ⟨fun offset text => ?_, fun offset front rear => Listing.classifyText_append [marker] sourceInComments offset,
    fun b start stop hle hstop => ⟨?_, ?_, fun hmem hcovers => ⟨?_, ?_⟩⟩⟩
  · have hordered := classifyText_ordered marker sourceInComments offset text
    refine ⟨hordered.apart, fun span hspan => ?_⟩
    obtain ⟨hstart, hproper, hbound⟩ := hordered.bounds span hspan
    exact ⟨hstart, hproper, hbound, fun _ _ => Listing.isReturn_of_mem_classifyText hspan⟩
  · exact (runs_listing marker sourceInComments b hle hstop).1
  · exact fun run => style_le_of_mem_runsBetween
  · exact styleText_result_of_le (adjustStart_of_mem_lineStarts [marker] sourceInComments hmem) hle hstop
  · exact styleText_frame hmem hle hstop hcovers

/-- Lines with all three line endings, the second of which has a comment. -/
def threeEndings : Buffer := .ofText "a\r\n1 # b\rc\n".toList none false 2 1024

theorem styling_tiles_threeEndings :
    Text.Divides (threeEndings.text.take 3) (threeEndings.text.drop 3) ∧
      Listing.classifyText ['#'] false 5 (threeEndings.text.take 3 ++ threeEndings.text.drop 3) =
        Listing.classifyText ['#'] false 5 (threeEndings.text.take 3) ++
          Listing.classifyText ['#'] false (5 + (threeEndings.text.take 3).length) (threeEndings.text.drop 3) ∧
      3 ∈ Buffer.lineStarts threeEndings.text ∧ threeEndings.styles.length = threeEndings.length ∧
      ∃ start stop : Nat, start = 3 ∧ stop = 8 ∧
        let runs := runs (.listing ['#'] false) threeEndings start stop
        let styled := (styleText (.listing ['#'] false) start stop).run threeEndings
        (∀ run ∈ runs, run.style ≤ 8) ∧ styled.result = .ok () ∧
          Text.slice styled.state.styles start stop = runStyles runs ∧
          ∀ place : Nat, place < start ∨ stop ≤ place → styled.state.styles[place]? = threeEndings.styles[place]? := by
  obtain ⟨-, hcut, hstretch⟩ := styling_tiles '#' false
  have hdivides : Text.Divides (threeEndings.text.take 3) (threeEndings.text.drop 3) := by
    have hlast : (threeEndings.text.take 3).getLast? = some '\n' := by decide
    refine .inr ⟨fun c hc => ?_, by decide⟩
    rw [hlast, Option.some.injEq] at hc
    exact hc ▸ rfl
  obtain ⟨-, hruns, hstyling⟩ := hstretch threeEndings 3 8 (by decide) (by decide)
  have hstarts : 3 ∈ Buffer.lineStarts threeEndings.text := by decide
  obtain ⟨hreturns, -, hframe, hstyles⟩ := hstyling hstarts (by decide)
  have hok := hreturns (by decide)
  exact ⟨hdivides, hcut 5 _ _ hdivides, hstarts, by decide, 3, 8, rfl, rfl, hruns, hok, hstyles hok, hframe⟩

end Highlighter

end ListingEditor
