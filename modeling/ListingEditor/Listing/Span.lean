namespace ListingEditor.Listing

/-- What a region of a line is. A rule of the user's own may give it any name. -/
inductive Category where
  | lineNumber
  | mnemonic
  | jumpTarget
  | label
  | operandByte
  | labelRef
  | comment
  | source
  | custom (name : String)
  deriving DecidableEq, Repr

/-- The name under which a category is reported. -/
def Category.name : Category → String
  | .lineNumber => "lineno"
  | .mnemonic => "mnemonic"
  | .jumpTarget => "jump_target"
  | .label => "label"
  | .operandByte => "operand_byte"
  | .labelRef => "label_ref"
  | .comment => "comment"
  | .source => "source"
  | .custom name => name

/-- A classified region: the characters from `start` up to, not including, `stop`. -/
structure Span where
  start : Int
  stop : Int
  category : Category
  deriving DecidableEq, Repr

namespace Span

/-- Whether the region shares a character with the one from `start` to `stop`. -/
def overlaps (span : Span) (start stop : Int) : Bool := start < span.stop && span.start < stop

/-- The region moved along the text. -/
def shift (span : Span) (distance : Int) : Span :=
  { span with start := span.start + distance, stop := span.stop + distance }

/-- A one-line account of the region. -/
def describe (span : Span) : String :=
  "Span(" ++ toString span.start ++ ", " ++ toString span.stop ++ ", " ++ span.category.name ++ ")"

@[simp] theorem shift_zero (span : Span) : span.shift 0 = span := by
  simp [shift]

@[simp] theorem shift_shift (span : Span) (a b : Int) : (span.shift a).shift b = span.shift (a + b) := by
  simp [shift, Int.add_assoc]

end Span

end ListingEditor.Listing
