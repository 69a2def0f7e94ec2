import ListingEditor.Listing.Classify

namespace ListingEditor.Listing

/-- The parts of a line of a listing: how many blanks it starts with, the label it declares, the source line
it starts with, its regions, and its comment. -/
structure LineInfo where
  text : List Char
  indent : Nat
  label : Option (List Char)
  lineNumber : Option Nat
  comment : Option (Int × Int)
  spans : List Span

/-- The number that decimal digits of any script write. -/
def digitsValue (digits : List Char) : Nat :=
  digits.foldl (fun n c => n * 10 + (Text.digitValue? c).getD 0) 0

/-- A line number with more digits than are read. -/
structure LongNumber where
  digits : Nat
  deriving DecidableEq, Repr

/-- The message about a line number that is too long. -/
def LongNumber.message (e : LongNumber) : String :=
  "Exceeds the limit (" ++ toString Text.digitLimit ++ " digits) for integer string conversion: value has " ++
    toString e.digits ++ " digits; use sys.set_int_max_str_digits() to increase the limit"

namespace LineInfo

/-- The region of the number that a line starts with, right behind its leading blanks. -/
def numberSpan? (indent : Nat) (spans : List Span) : Option Span :=
  spans.find? fun span => span.category == .lineNumber && span.start == (indent : Int)

/-- Takes a line apart. -/
def ofLine (marker text : List Char) : LineInfo :=
  let indent := (text.takeWhile Text.isBlank).length
  let spans := classify marker false text
  let comment? := spans.find? fun span => span.category == .comment
  { text, indent, spans
    label := (label? text).map fun (start, stop) => (text.take stop).drop start
    lineNumber := (numberSpan? indent spans).map fun span =>
      digitsValue ((text.take span.stop.toNat).drop span.start.toNat)
    comment := comment?.map fun span => (span.start, span.stop) }

/-- Takes a line apart, unless the number that it starts with is too long. -/
def read (marker text : List Char) : Except LongNumber LineInfo :=
  let info := ofLine marker text
  match numberSpan? info.indent info.spans with
  | some span =>
    let digits := (span.stop - span.start).toNat
    if Text.digitLimit < digits then .error ⟨digits⟩ else .ok info
  | none => .ok info

/-- Whether the line holds nothing but blanks. -/
def isBlank (info : LineInfo) : Bool := info.indent == info.text.length

/-- The line behind its leading blanks. -/
def content (info : LineInfo) : List Char := info.text.drop info.indent

/-- A one-line account of the parts. A part that is missing shows as `None`. -/
def describe (info : LineInfo) : String :=
  let label := (info.label.map String.ofList).getD "None"
  let number := (info.lineNumber.map toString).getD "None"
  let comment := match info.comment with
    | some (start, stop) => "(" ++ toString start ++ ", " ++ toString stop ++ ")"
    | none => "None"
  "LineInfo(indent=" ++ toString info.indent ++ ", label=" ++ label ++ ", lineno=" ++ number ++
    ", comment=" ++ comment ++ ")"

end LineInfo

end ListingEditor.Listing
