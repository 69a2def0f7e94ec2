import ListingEditor.Text.Blank

namespace ListingEditor.Listing

/-- Looks for a comment in the rest of a line. `escaped` says whether a backslash stands before it. -/
def commentStartFrom (marker : List Char) (escaped : Bool) (offset : Nat) (rest : List Char) :
    Option Nat :=
  if !escaped && marker.isPrefixOf rest then some offset
  else
    match rest with
    | [] => none
    | c :: rest => commentStartFrom marker (c == '\\') (offset + 1) rest

/-- Where the comment of a line starts: at the first marker that no backslash stands before. -/
def commentStart? (marker text : List Char) : Option Nat := commentStartFrom marker false 0 text

/-- The part of a line in front of its comment. -/
def code (marker text : List Char) : List Char :=
  match commentStart? marker text with
  | some k => text.take k
  | none => text

/-- How many characters of a comment come before what it says: the repeated marker and the blanks behind
it. Only a marker of one character is repeated. -/
def commentLead (marker comment : List Char) : Nat :=
  let afterMarkers := comment.dropWhile fun c => marker == [c]
  comment.length - (afterMarkers.dropWhile Text.isBlank).length

end ListingEditor.Listing
