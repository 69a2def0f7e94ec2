import ListingEditor.Listing.Comment
import ListingEditor.Listing.Rule
import ListingEditor.Text.Lines

namespace ListingEditor.Listing

/-- Adds a proposed region, unless it overlaps one that has been kept. -/
def keep (category : Category) (kept : List Span) (candidate : Nat × Nat) : List Span :=
  if kept.any (·.overlaps candidate.1 candidate.2) then kept
  else kept ++ [⟨candidate.1, candidate.2, category⟩]

/-- Adds what a rule proposes for a text. -/
def applyRule (text : List Char) (kept : List Span) (rule : Rule) : List Span :=
  (rule.candidates text).foldl (keep rule.category) kept

/-- The regions that the rules keep in the text in front of a comment, from left to right. -/
def ruleSpans (rules : List Rule) (text : List Char) : List Span :=
  (rules.foldl (applyRule text) []).mergeSort fun a b => a.start ≤ b.start

/-- The regions of a comment that starts at `start` and reaches the end of the line. With `sourceInComments`
what the comment says is a region of its own, if it says anything. -/
def commentSpans (marker text : List Char) (sourceInComments : Bool) (start : Nat) : List Span :=
  let body := start + commentLead marker (text.drop start)
  if sourceInComments && body < text.length then
    [⟨start, body, .comment⟩, ⟨body, text.length, .source⟩]
  else [⟨start, text.length, .comment⟩]

/-- Splits a line, given without its line end, into classified regions from left to right. -/
def classifyWith (rules : List Rule) (marker : List Char) (sourceInComments : Bool)
    (text : List Char) : List Span :=
  match commentStart? marker text with
  | some start =>
    ruleSpans rules (text.take start) ++ commentSpans marker text sourceInComments start
  | none => ruleSpans rules text

/-- Splits a line of a listing into classified regions from left to right. -/
def classify (marker : List Char) (sourceInComments : Bool) (text : List Char) : List Span :=
  classifyWith Rule.standard marker sourceInComments text

/-- Classifies lines one after the other, the first of which starts at `offset`. -/
def classifyLines (marker : List Char) (sourceInComments : Bool) :
    Int → List (List Char) → List Span
  | _, [] => []
  | offset, line :: lines =>
    (classify marker sourceInComments (Text.trimEnd Text.isReturn line)).map (·.shift offset) ++
      classifyLines marker sourceInComments (offset + line.length) lines

/-- Classifies a text of any number of lines that starts at `offset`. -/
def classifyText (marker : List Char) (sourceInComments : Bool) (offset : Int)
    (text : List Char) : List Span :=
  classifyLines marker sourceInComments offset (Text.lines text)

end ListingEditor.Listing
