import ListingEditor.Mode.Basic
import ListingEditor.Proofs.Indent.Label
import ListingEditor.Proofs.Listing.CommentBody
import ListingEditor.Proofs.Listing.Indentation

/-!
Comment lines. The regions of a line, the account of its parts and the column at which it belongs agree on which lines
are comments, unless the marker of comments is a character of labels and the line declares a label.
-/

namespace ListingEditor

open Text (AllBlank isBlank)
open Listing (LineInfo classify commentStart? isLabelChar label? markerRun)

theorem Mode.isBlank_of_isMarker {marker : Char} (haccepted : isMarker (.text (.singleton marker)) = true) :
    isBlank marker = false := by
  by_contra hblank
  rw [Bool.not_eq_false] at hblank
  rcases Listing.isBlank_iff.mp hblank with rfl | rfl <;> exact absurd haccepted (by decide)

namespace Listing

/-- A marker is repeated at the start of a text at least as often as its run is long, and no more often. -/
theorem replicate_prefix_iff {marker : Char} {text : List Char} (count : Nat) :
    List.replicate count marker <+: text ↔ count ≤ markerRun marker text := by
  induction text generalizing count with
  | nil => simp [markerRun]
  | cons c text ih =>
    cases count with
    | zero => simp
    | succ count =>
      rw [List.replicate_succ, List.cons_prefix_cons, ih]
      by_cases hc : c = marker
      · simp [markerRun, hc]
      · simp [markerRun, hc, Ne.symm hc]

namespace LineInfo

theorem eq_ofLine_of_read {marker text : List Char} {info : LineInfo} (hread : read marker text = .ok info) :
    info = ofLine marker text := by
  unfold read at hread
  dsimp only at hread
  split at hread
  · split at hread
    · cases hread
    · exact (Except.ok.inj hread).symm
  · exact (Except.ok.inj hread).symm

/-- The comment of a line is where the search for it finds it, and reaches the end of the line. -/
theorem ofLine_comment (marker text : List Char) :
    (ofLine marker text).comment =
      (commentStart? marker text).map fun start : Nat => ((start : Int), (text.length : Int)) := by
  have hrules (code : List Char) : (ruleSpans Rule.standard code).find? (·.category == .comment) = none := by
    rw [List.find?_eq_none]
    intro span hspan
    simpa using category_ne_comment_of_mem_ruleSpans hspan
  rw [ofLine, classify, classifyWith]
  cases commentStart? marker text with
  | none => simp [hrules]
  | some start => simp [hrules, commentSpans]

/-- A label that a line declares stands right behind the indentation. -/
theorem ofLine_label {marker text label : List Char} (hlabel : (ofLine marker text).label = some label) :
    label = (text.dropWhile Text.isBlank).takeWhile isLabelChar := by
  obtain ⟨⟨start, stop⟩, hfound, hpart⟩ := Option.map_eq_some_iff.mp hlabel
  obtain ⟨hstart, hlt, hrun, -⟩ := label?_eq_some_iff.mp hfound
  have hcontent : text.drop start = text.dropWhile Text.isBlank := by
    have hparts := List.prefix_iff_eq_append.mp (text.takeWhile_prefix Text.isBlank)
    rw [hstart] at hparts
    exact List.append_cancel_left (hparts.trans List.takeWhile_append_dropWhile.symm)
  rw [← hpart]
  dsimp only
  rw [List.drop_take, hcontent, ← hrun, hcontent]
  exact (List.prefix_iff_eq_take.mp (List.takeWhile_prefix _)).symm

end LineInfo

section

variable {marker : Char} {blanks : List Char}

/-- A line that starts with the marker, blanks aside, is a comment and nothing else. -/
theorem classify_commentLine (hmarker : isBlank marker = false) (hblank : AllBlank blanks) (body : List Char) :
    classify [marker] false (blanks ++ marker :: body) =
      [⟨blanks.length, (blanks ++ marker :: body).length, .comment⟩] := by
  have hfound : commentStart? [marker] (marker :: body) = some 0 := by
    rw [commentStart?, commentStartFrom]
    simp
  have hcode : code [marker] (marker :: body) = [] := code_of_commentStart hfound
  have hlead : leadSpans blanks [] = [] := by
    simp [leadSpans, leadNumber, lineNumberAt]
  have hrules : ruleSpans Rule.standard [] = [] := by
    rw [ruleSpans, show Rule.standard.foldl (applyRule []) [] = [] from rfl, List.mergeSort_nil]
  rw [classify_append_blanks hmarker hblank, hcode, hlead, classify, classifyWith, hfound]
  simp [hrules, commentSpans, Span.shift, Int.add_comm]

end

end Listing

namespace Indent

/-- A text that starts with a label's name and a colon. -/
def DeclaresLabel (text : List Char) : Prop := ∃ word rest, LabelName word ∧ text = word ++ ':' :: rest

/-- The label test looks for a label's name and a colon behind the blanks of a line. -/
theorem label?_isSome_iff {text : List Char} :
    (label? text).isSome = true ↔ DeclaresLabel (text.dropWhile isBlank) := by
  have hindent : (label? text).isSome = (label? (text.dropWhile isBlank)).isSome := by
    have hmoved := Listing.label?_append_blanks (Text.takeWhile_allBlank text) (text.dropWhile isBlank)
    rw [List.takeWhile_append_dropWhile] at hmoved
    rw [hmoved, Option.isSome_map]
  have hblank := Text.takeWhile_dropWhile isBlank text
  rw [hindent]
  generalize text.dropWhile isBlank = content at hblank
  constructor
  · intro hsome
    obtain ⟨⟨start, stop⟩, hlabel⟩ := Option.isSome_iff_exists.mp hsome
    obtain ⟨hstart, hlt, hrun, hcolon⟩ := Listing.label?_eq_some_iff.mp hlabel
    obtain rfl : start = 0 := by rw [← hstart, hblank, List.length_nil]
    rw [List.drop_zero, Nat.sub_zero] at hrun
    refine ⟨content.takeWhile isLabelChar, content.drop (stop + 1), ⟨?_, fun c => List.mem_takeWhile_imp⟩, ?_⟩
    · exact List.ne_nil_of_length_pos (by omega)
    · obtain ⟨hinside, hget⟩ := List.getElem?_eq_some_iff.mp hcolon
      rw [← hget, ← List.drop_eq_getElem_cons hinside, ← hrun]
      exact (List.prefix_iff_eq_append.mp (List.takeWhile_prefix _)).symm
  · rintro ⟨word, rest, hname, rfl⟩
    rw [hname.label?_eq]
    rfl

theorem DeclaresLabel.isLabelChar_head {c : Char} {rest : List Char} (hlabel : DeclaresLabel (c :: rest)) :
    isLabelChar c = true := by
  obtain ⟨word, behind, hname, htext⟩ := hlabel
  obtain ⟨d, word, rfl⟩ := List.exists_cons_of_ne_nil hname.ne_nil
  obtain ⟨rfl, -⟩ := List.cons.inj htext
  exact hname.chars c List.mem_cons_self

/-- Where a line that starts with the marker belongs is a matter of how often the marker is repeated. -/
theorem column_commentLine {marker : Char} {text : List Char} (comment code : Int)
    (hmarker : (text.dropWhile isBlank).head? = some marker) (hlabel : ¬ DeclaresLabel (text.dropWhile isBlank)) :
    (Columns.mk [marker] comment code).column text =
      match markerRun marker (text.dropWhile isBlank) with
      | 1 => comment
      | 2 => code
      | _ => 0 := by
  have hnone : (label? (text.dropWhile isBlank)).isSome = false := by
    rwa [← Bool.not_eq_true, label?_isSome_iff, List.dropWhile_idempotent]
  generalize hcontent : text.dropWhile isBlank = content at hmarker hnone
  have hone : [marker].isPrefixOf content = true ↔ 1 ≤ markerRun marker content :=
    List.isPrefixOf_iff_prefix.trans (Listing.replicate_prefix_iff 1)
  have htwo : ([marker] ++ [marker]).isPrefixOf content = true ↔ 2 ≤ markerRun marker content :=
    List.isPrefixOf_iff_prefix.trans (Listing.replicate_prefix_iff 2)
  have hthree : ([marker] ++ [marker] ++ [marker]).isPrefixOf content = true ↔ 3 ≤ markerRun marker content :=
    List.isPrefixOf_iff_prefix.trans (Listing.replicate_prefix_iff 3)
  have hpositive : 1 ≤ markerRun marker content := by
    obtain ⟨rest, rfl⟩ := List.head?_eq_some_iff.mp hmarker
    exact hone.mp (by simp)
  have hplacement : placement [marker] text =
      if 3 ≤ markerRun marker content then .margin
      else if 1 ≤ markerRun marker content ∧ ¬ 2 ≤ markerRun marker content then .comment
      else .code := by
    simp only [placement, hcontent, hnone, hthree, ← hone, ← htwo, Bool.and_eq_true, Bool.not_eq_true',
      Bool.not_eq_true]
    rfl
  rw [Columns.column, hplacement]
  generalize markerRun marker content = run at hpositive
  obtain rfl | rfl | ⟨more, rfl⟩ : run = 1 ∨ run = 2 ∨ ∃ more, run = more + 3 := by
    by_cases hmany : 3 ≤ run
    · exact .inr (.inr ⟨run - 3, by omega⟩)
    · omega
  · rfl
  · rfl
  · rw [if_pos (by omega)]
    rfl

theorem column_of_label {text : List Char} (columns : Columns) (hlabel : DeclaresLabel (text.dropWhile isBlank)) :
    columns.column text = 0 := by
  have hsome : (label? (text.dropWhile isBlank)).isSome = true := by
    rwa [label?_isSome_iff, List.dropWhile_idempotent]
  rw [Columns.column, placement, if_pos hsome]
  rfl

end Indent

open Indent (Columns DeclaresLabel)

namespace Listing

variable {marker : Char} {text : List Char}

/-- A line that starts with the marker, blanks aside, has a comment that starts behind the blanks and reaches the end of
the line, and no number. -/
theorem LineInfo.read_commentLine (hmarker : Text.isBlank marker = false)
    (hstarts : (text.dropWhile Text.isBlank).head? = some marker) :
    let info := ofLine [marker] text
    read [marker] text = .ok info ∧ info.comment = some ((info.indent : Int), (text.length : Int)) ∧
      info.lineNumber = none := by
  intro info
  obtain ⟨body, hbody⟩ := List.head?_eq_some_iff.mp hstarts
  have htext : text = text.takeWhile Text.isBlank ++ marker :: body := by
    rw [← hbody, List.takeWhile_append_dropWhile]
  have hspans : classify [marker] false text = [⟨(text.takeWhile Text.isBlank).length, text.length, .comment⟩] := by
    have hcomment := classify_commentLine hmarker (Text.takeWhile_allBlank text) body
    rwa [← htext] at hcomment
  have hnumber : numberSpan? info.indent info.spans = none := by
    change numberSpan? _ (classify [marker] false text) = none
    rw [hspans]
    rfl
  refine ⟨?_, ?_, congrArg (Option.map _) hnumber⟩
  · rw [read]
    dsimp only
    rw [hnumber]
  · change ((classify [marker] false text).find? _).map _ = _
    rw [hspans]
    rfl

/-- A label without the marker ends before the comment starts. -/
theorem LineInfo.label_before_comment (hmarker : Text.isBlank marker = false) {label : List Char} {start stop : Int}
    (hlabel : (ofLine [marker] text).label = some label) (hother : marker ∉ label)
    (hcomment : (ofLine [marker] text).comment = some (start, stop)) :
    (((ofLine [marker] text).indent + label.length : Nat) : Int) ≤ start := by
  rw [ofLine_comment] at hcomment
  obtain ⟨place, hfound, hplace⟩ := Option.map_eq_some_iff.mp hcomment
  obtain ⟨rfl, -⟩ := Prod.mk.inj hplace
  obtain ⟨body, hdrop⟩ := drop_commentStart hfound
  have hget : text[place]? = some marker := by
    rw [← List.head?_drop, hdrop, List.head?_cons]
  obtain ⟨rest, hrest⟩ : label <+: text.dropWhile Text.isBlank := ofLine_label hlabel ▸ List.takeWhile_prefix _
  have hparts : text = text.takeWhile Text.isBlank ++ label ++ rest := by
    rw [List.append_assoc, hrest, List.takeWhile_append_dropWhile]
  change ((((text.takeWhile Text.isBlank).length + label.length : Nat)) : Int) ≤ place
  by_contra hinside
  have hlt : place < (text.takeWhile Text.isBlank ++ label).length := by
    rw [List.length_append]
    omega
  have hmem : marker ∈ text.takeWhile Text.isBlank ++ label := by
    rw [hparts, List.getElem?_append_left hlt] at hget
    exact List.mem_of_getElem? hget
  rcases List.mem_append.mp hmem with hblank | hlabelled
  · have hc := Text.takeWhile_allBlank text marker hblank
    rw [hmarker] at hc
    cases hc
  · exact hother hlabelled

/-- The account of a line's parts and the column at which it belongs agree on comment lines, for every marker that a
session can have. A line that starts with the marker, blanks aside, is a comment from there to its end; unless it
declares a label, which takes a marker that labels can hold, it has none, and its column is that of a comment. On any
line a label without the marker ends before the comment. -/
theorem commentLine_agrees (haccepted : Mode.isMarker (.text (.singleton marker)) = true) (comment code : Int)
    (text : List Char) :
    let content := text.dropWhile Text.isBlank
    let columns : Columns := ⟨[marker], comment, code⟩
    (content.head? = some marker →
      (∃ info, LineInfo.read [marker] text = .ok info ∧
        info.comment = some ((info.indent : Int), (text.length : Int)) ∧ info.lineNumber = none ∧
        (¬ DeclaresLabel content → info.label = none)) ∧
      (¬ DeclaresLabel content →
        columns.column text = match markerRun marker content with
          | 1 => comment
          | 2 => code
          | _ => 0) ∧
      (DeclaresLabel content → isLabelChar marker = true ∧ columns.column text = 0)) ∧
    ∀ info, LineInfo.read [marker] text = .ok info → ∀ label start stop, info.label = some label → marker ∉ label →
      info.comment = some (start, stop) → ((info.indent + label.length : Nat) : Int) ≤ start := by
  intro content columns
  have hmarker := Mode.isBlank_of_isMarker haccepted
  refine ⟨fun hstarts => ⟨?_, ?_, fun hlabel => ?_⟩, ?_⟩
  · obtain ⟨hread, hcomment, hnumber⟩ := LineInfo.read_commentLine hmarker hstarts
    refine ⟨_, hread, hcomment, hnumber, fun hlabel => ?_⟩
    have hnone : label? text = none := by
      rwa [← Option.not_isSome_iff_eq_none, Indent.label?_isSome_iff]
    exact congrArg (Option.map _) hnone
  · exact fun hlabel => Indent.column_commentLine comment code hstarts hlabel
  · obtain ⟨rest, hrest⟩ := List.head?_eq_some_iff.mp hstarts
    exact ⟨(hrest ▸ hlabel).isLabelChar_head, Indent.column_of_label columns hlabel⟩
  · intro info hread label start stop hlabel hother hcomment
    obtain rfl := LineInfo.eq_ofLine_of_read hread
    exact LineInfo.label_before_comment hmarker hlabel hother hcomment

theorem commentLine_agrees_twoMarkers :
    (∃ info, LineInfo.read ['#'] "\t## L:".toList = .ok info ∧ info.comment = some (1, 6) ∧ info.lineNumber = none ∧
        info.label = none) ∧
      (Columns.mk ['#'] 32 8).column "\t## L:".toList = 8 ∧
      ∃ info, LineInfo.read ['#'] "L1: #".toList = .ok info ∧ info.label = some "L1".toList ∧
        info.comment = some (4, 5) ∧ ((info.indent + "L1".toList.length : Nat) : Int) ≤ 4 := by
  have haccepted : Mode.isMarker (.text (.singleton '#')) = true := by decide
  have hlabel : ¬ DeclaresLabel ("\t## L:".toList.dropWhile Text.isBlank) := by
    rw [← Indent.label?_isSome_iff]
    decide
  obtain ⟨⟨info, hread, hcomment, hnumber, hnone⟩, hcolumn, -⟩ :=
    (commentLine_agrees haccepted 32 8 "\t## L:".toList).1 (by decide)
  obtain rfl := LineInfo.eq_ofLine_of_read hread
  have hname : Indent.LabelName "L1".toList := ⟨by decide, List.all_eq_true.mp (by decide)⟩
  obtain ⟨other, hother, hword⟩ := hname.read_eq ['#'] " #".toList
  have hplace : other.comment = some (4, 5) := by
    rw [LineInfo.eq_ofLine_of_read hother, LineInfo.ofLine_comment]
    decide
  have hbefore := (commentLine_agrees haccepted 32 8 "L1: #".toList).2 other hother _ _ _ hword (by decide) hplace
  exact ⟨⟨_, hread, hcomment, hnumber, hnone hlabel⟩, hcolumn hlabel, other, hother, hword, hplace, hbefore⟩

/-- A marker that labels can hold: a line that starts with it declares a label and goes to the margin, and a label with
it reaches into the comment. -/
theorem commentLine_labelMarker :
    Mode.isMarker (.text (.singleton 'a')) = true ∧
      (∃ info, LineInfo.read ['a'] "a:".toList = .ok info ∧ info.label = some "a".toList) ∧
      markerRun 'a' "a:".toList = 1 ∧ (Columns.mk ['a'] 32 8).column "a:".toList = 0 ∧
      ∃ info, LineInfo.read ['a'] "ba:".toList = .ok info ∧ info.label = some "ba".toList ∧
        info.comment = some (1, 3) := by
  have hshort : Indent.LabelName "a".toList := ⟨by decide, List.all_eq_true.mp (by decide)⟩
  have hlong : Indent.LabelName "ba".toList := ⟨by decide, List.all_eq_true.mp (by decide)⟩
  obtain ⟨info, hread, hlabel⟩ := hlong.read_eq ['a'] []
  have hplace : info.comment = some (1, 3) := by
    rw [LineInfo.eq_ofLine_of_read hread, LineInfo.ofLine_comment]
    decide
  exact ⟨by decide, hshort.read_eq ['a'] [], by decide, by decide, info, hread, hlabel, hplace⟩

end Listing

end ListingEditor
