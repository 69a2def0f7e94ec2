import ListingEditor.Listing.Rule

namespace ListingEditor.Indent

/-- Where a line of a listing belongs: at the left margin, at the column of comments, or at the first tab
stop. -/
inductive Placement where
  | margin
  | comment
  | code
  deriving DecidableEq, Repr

/-- Where a line belongs. Labels and block comments, which start with three markers, go to the margin, and a
comment with one marker to the column of comments. Two markers are nothing special. -/
def placement (marker text : List Char) : Placement :=
  let content := text.dropWhile Text.isBlank
  if (Listing.label? content).isSome then .margin
  else if (marker ++ marker ++ marker).isPrefixOf content then .margin
  else if marker.isPrefixOf content && !(marker ++ marker).isPrefixOf content then .comment
  else .code

/-- Whether a text is blanks and one word that a colon would make a label. -/
def isBareLabel (text : List Char) : Bool :=
  let word := text.dropWhile Text.isBlank
  !word.isEmpty && word.all Listing.isLabelChar

/-- The columns of a listing, and the marker of its comments. -/
structure Columns where
  marker : List Char
  comment : Int
  code : Int
  deriving DecidableEq, Repr

/-- The column of a placement. -/
def Columns.of (columns : Columns) : Placement → Int
  | .margin => 0
  | .comment => columns.comment
  | .code => columns.code

/-- The column at which a line should start. -/
def Columns.column (columns : Columns) (text : List Char) : Int :=
  columns.of (placement columns.marker text)

end ListingEditor.Indent
