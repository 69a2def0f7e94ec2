import ListingEditor.Highlight
import ListingEditor.Proofs.Listing.Recognizer
import ListingEditor.Proofs.Text.Lines

/-!
The styles that a text should have. They are given line by line, so behind a return the styles of the two
parts of a text are the styles of the whole; this holds even between a carriage return and its line feed.
-/

namespace ListingEditor.Highlighter

open Listing (Span Ordered)

/-- The styles that runs give to the characters they cover. -/
def runStyles (runs : List StyleRun) : List Nat :=
  runs.flatMap fun run => List.replicate run.count.toNat run.style

/-- The styles of the characters between two places, given the regions between them. -/
def spanStyles (start stop : Int) (spans : List Span) : List Nat :=
  runStyles (runsBetween start stop spans)

/-- The styles of a line and its break. -/
def lineStyles (marker : Char) (sourceInComments : Bool) (line : List Char) : List Nat :=
  spanStyles 0 line.length
    (Listing.classify [marker] sourceInComments (Text.trimEnd Text.isReturn line))

/-- The styles of a text. -/
def textStyles (marker : Char) (sourceInComments : Bool) (text : List Char) : List Nat :=
  (Text.lines text).flatMap (lineStyles marker sourceInComments)

theorem spanStyles_nil {start stop : Int} :
    spanStyles start stop [] = List.replicate (stop - start).toNat 0 := by
  unfold spanStyles runsBetween
  split
  · simp [runStyles]
  · rw [show (stop - start).toNat = 0 by omega]
    rfl

theorem spanStyles_cons {start stop : Int} {span : Span} {spans : List Span} :
    spanStyles start stop (span :: spans) =
      List.replicate (span.start - start).toNat 0 ++
        List.replicate (span.stop - span.start).toNat span.category.style ++
          spanStyles span.stop stop spans := by
  simp only [spanStyles, runsBetween]
  split
  · simp [runStyles]
  · rw [show (span.start - start).toNat = 0 by omega]
    simp [runStyles]

theorem replicate_append_spanStyles {start middle stop : Int} {spans : List Span}
    (hle : start ≤ middle) (hordered : Ordered middle stop spans) :
    List.replicate (middle - start).toNat 0 ++ spanStyles middle stop spans =
      spanStyles start stop spans := by
  cases spans with
  | nil =>
    have hstop := hordered.le
    rw [spanStyles_nil, spanStyles_nil, List.replicate_append_replicate]
    congr 1
    omega
  | cons span spans =>
    have hstart := hordered.1
    rw [spanStyles_cons, spanStyles_cons, ← List.append_assoc, ← List.append_assoc,
      List.replicate_append_replicate]
    congr 3
    omega

/-- Styles of two stretches, one behind the other. -/
theorem spanStyles_append {start middle stop : Int} {front rear : List Span}
    (hfront : Ordered start middle front) (hrear : Ordered middle stop rear) :
    spanStyles start stop (front ++ rear) =
      spanStyles start middle front ++ spanStyles middle stop rear := by
  induction front generalizing start with
  | nil => rw [List.nil_append, spanStyles_nil, replicate_append_spanStyles hfront hrear]
  | cons span front ih =>
    rw [List.cons_append, spanStyles_cons, spanStyles_cons, ih hfront.2.2, List.append_assoc _ _
      (spanStyles middle stop rear)]

theorem spanStyles_extend {start middle stop : Int} {spans : List Span}
    (hordered : Ordered start middle spans) (hle : middle ≤ stop) :
    spanStyles start stop spans =
      spanStyles start middle spans ++ List.replicate (stop - middle).toNat 0 := by
  have hrear : Ordered middle stop [] := hle
  rw [← spanStyles_nil, ← spanStyles_append hordered hrear, List.append_nil]

theorem spanStyles_shift (start stop distance : Int) (spans : List Span) :
    spanStyles (start + distance) (stop + distance) (spans.map (·.shift distance)) =
      spanStyles start stop spans := by
  induction spans generalizing start with
  | nil =>
    rw [List.map_nil, spanStyles_nil, spanStyles_nil]
    congr 1
    omega
  | cons span spans ih =>
    rw [List.map_cons, spanStyles_cons, spanStyles_cons]
    simp only [Span.shift] at ih ⊢
    rw [ih, show span.start + distance - (start + distance) = span.start - start by omega,
      show span.stop + distance - (span.start + distance) = span.stop - span.start by omega]

theorem spanStyles_length {start stop : Int} {spans : List Span} (hordered : Ordered start stop spans) :
    (spanStyles start stop spans).length = (stop - start).toNat := by
  induction spans generalizing start with
  | nil => rw [spanStyles_nil, List.length_replicate]
  | cons span spans ih =>
    obtain ⟨hstart, hproper, hrest⟩ := hordered
    have hstop := hrest.le
    rw [spanStyles_cons, List.length_append, List.length_append, List.length_replicate,
      List.length_replicate, ih hrest]
    omega

theorem trimEnd_length_le (kind : Char → Bool) (text : List Char) :
    (Text.trimEnd kind text).length ≤ text.length := by
  have hle := (text.reverse.dropWhile_sublist kind).length_le
  simpa [Text.trimEnd] using hle

/-- The regions of a line without its break are in order on the whole line. -/
theorem line_ordered (marker : Char) (sourceInComments : Bool) (line : List Char) :
    Ordered 0 line.length
      (Listing.classify [marker] sourceInComments (Text.trimEnd Text.isReturn line)) :=
  (Listing.classify_ordered marker sourceInComments _).weaken (Int.le_refl 0)
    (Int.ofNat_le.mpr (trimEnd_length_le _ _))

theorem lineStyles_length (marker : Char) (sourceInComments : Bool) (line : List Char) :
    (lineStyles marker sourceInComments line).length = line.length := by
  rw [lineStyles, spanStyles_length (line_ordered ..)]
  omega

theorem textStyles_length (marker : Char) (sourceInComments : Bool) (text : List Char) :
    (textStyles marker sourceInComments text).length = text.length := by
  rw [← congrArg List.length (Text.lines_flatten text), textStyles, List.length_flatMap,
    List.length_flatten]
  simp only [lineStyles_length]

/-- The regions of several lines are in order, and give each line its own styles. -/
theorem classifyLines_ordered (marker : Char) (sourceInComments : Bool) (offset : Int)
    (lines : List (List Char)) :
    Ordered offset (offset + lines.flatten.length)
        (Listing.classifyLines [marker] sourceInComments offset lines) ∧
      spanStyles offset (offset + lines.flatten.length)
          (Listing.classifyLines [marker] sourceInComments offset lines) =
        lines.flatMap (lineStyles marker sourceInComments) := by
  induction lines generalizing offset with
  | nil =>
    refine ⟨by simp [Listing.classifyLines, Ordered], ?_⟩
    rw [Listing.classifyLines, spanStyles_nil]
    simp
  | cons line lines ih =>
    obtain ⟨hrest, hstyles⟩ := ih (offset + line.length)
    have hstop : offset + ((line :: lines).flatten.length : Int) =
        offset + line.length + lines.flatten.length := by
      rw [List.flatten_cons, List.length_append]
      omega
    have hline := (line_ordered marker sourceInComments line).shift offset
    rw [Int.zero_add, Int.add_comm _ offset] at hline
    rw [hstop, Listing.classifyLines]
    refine ⟨hline.append hrest, ?_⟩
    rw [spanStyles_append hline hrest, hstyles, List.flatMap_cons, lineStyles,
      ← spanStyles_shift 0 line.length offset, Int.zero_add, Int.add_comm _ offset]

/-- The runs of a text in a buffer carry the styles of that text. -/
theorem spanStyles_classifyText (marker : Char) (sourceInComments : Bool) (offset : Int)
    (text : List Char) :
    spanStyles offset (offset + text.length)
        (Listing.classifyText [marker] sourceInComments offset text) =
      textStyles marker sourceInComments text := by
  have hlines := (classifyLines_ordered marker sourceInComments offset (Text.lines text)).2
  rwa [Text.lines_flatten] at hlines

theorem classifyText_ordered (marker : Char) (sourceInComments : Bool) (offset : Int)
    (text : List Char) :
    Ordered offset (offset + text.length)
      (Listing.classifyText [marker] sourceInComments offset text) := by
  have hlines := (classifyLines_ordered marker sourceInComments offset (Text.lines text)).1
  rwa [Text.lines_flatten] at hlines

/-- A line feed behind the carriage return of a line gets no style of its own. -/
theorem lineStyles_feed (marker : Char) (sourceInComments : Bool) (line : List Char) :
    lineStyles marker sourceInComments (line ++ ['\r', '\n']) =
      lineStyles marker sourceInComments (line ++ ['\r']) ++ [0] := by
  have htrim : Text.trimEnd Text.isReturn (line ++ ['\r', '\n']) =
      Text.trimEnd Text.isReturn (line ++ ['\r']) := by
    simp [Text.trimEnd, Text.isReturn]
  have hordered := line_ordered marker sourceInComments (line ++ ['\r'])
  have hlength : ((line ++ ['\r', '\n']).length : Int) = (line ++ ['\r']).length + 1 := by
    simp only [List.length_append, List.length_cons, List.length_nil]
    omega
  rw [lineStyles, htrim, spanStyles_extend hordered (by omega), lineStyles, hlength,
    show ((line ++ ['\r']).length : Int) + 1 - (line ++ ['\r']).length = 1 by omega]
  rfl

theorem lineStyles_nil_break (marker : Char) (sourceInComments : Bool) :
    lineStyles marker sourceInComments ['\n'] = [0] := by
  have hordered := Listing.classify_ordered marker sourceInComments []
  have hnone : Listing.classify [marker] sourceInComments [] = [] := by
    cases hspans : Listing.classify [marker] sourceInComments [] with
    | nil => rfl
    | cons span spans =>
      rw [hspans] at hordered
      obtain ⟨hstart, hproper, hrest⟩ := hordered
      have hstop := hrest.le
      rw [List.length_nil] at hstop
      omega
  have htrim : Text.trimEnd Text.isReturn ['\n'] = [] := rfl
  rw [lineStyles, htrim, hnone, spanStyles_nil]
  rfl

theorem textStyles_append_of_not_splitsBreak (marker : Char) (sourceInComments : Bool)
    {front rear : List Char} (hends : Text.EndsLine front) (hsplit : ¬ Text.SplitsBreak front rear) :
    textStyles marker sourceInComments (front ++ rear) =
      textStyles marker sourceInComments front ++ textStyles marker sourceInComments rear := by
  rw [textStyles, Text.lines_append hends hsplit, List.flatMap_append]
  rfl

/-- Behind a return, styling a text comes apart into styling its two parts. -/
theorem textStyles_append (marker : Char) (sourceInComments : Bool) {front : List Char}
    (rear : List Char) (hends : Text.EndsLine front) :
    textStyles marker sourceInComments (front ++ rear) =
      textStyles marker sourceInComments front ++ textStyles marker sourceInComments rear := by
  by_cases hsplit : Text.SplitsBreak front rear
  · -- the cut goes through a line break: the line feed belongs to the line in front of it
    obtain ⟨hlast, hhead⟩ := hsplit
    obtain ⟨body, rfl⟩ := List.getLast?_eq_some_iff.mp hlast
    obtain ⟨rest, rfl⟩ := List.head?_eq_some_iff.mp hhead
    have hfeed (text : List Char) :
        textStyles marker sourceInComments (text ++ ['\n'] ++ rest) =
          textStyles marker sourceInComments (text ++ ['\n']) ++
            textStyles marker sourceInComments rest := by
      refine textStyles_append_of_not_splitsBreak _ _ (Text.endsLine_concat rfl) ?_
      rintro ⟨h, _⟩
      simp at h
    obtain ⟨lines, last, hreturn, hboth⟩ := Text.lines_append_feed body
    have hbody : textStyles marker sourceInComments (body ++ ['\r'] ++ ['\n']) =
        textStyles marker sourceInComments (body ++ ['\r']) ++ [0] := by
      rw [textStyles, textStyles, List.append_assoc, List.singleton_append, hboth, hreturn,
        List.flatMap_append, List.flatMap_append, List.flatMap_singleton, List.flatMap_singleton,
        lineStyles_feed, List.append_assoc]
    have halone : textStyles marker sourceInComments ['\n'] = [0] :=
      (List.flatMap_singleton _ _).trans (lineStyles_nil_break ..)
    calc textStyles marker sourceInComments (body ++ ['\r'] ++ '\n' :: rest)
        = textStyles marker sourceInComments (body ++ ['\r'] ++ ['\n'] ++ rest) := by simp
      _ = textStyles marker sourceInComments (body ++ ['\r']) ++
            (textStyles marker sourceInComments ['\n'] ++
              textStyles marker sourceInComments rest) := by
          rw [hfeed, hbody, halone, List.append_assoc]
      _ = textStyles marker sourceInComments (body ++ ['\r']) ++
            textStyles marker sourceInComments ('\n' :: rest) := by
          exact congrArg _ (hfeed []).symm
  · exact textStyles_append_of_not_splitsBreak _ _ hends hsplit

end ListingEditor.Highlighter
