import ListingEditor.Indent.Placement
import ListingEditor.Log
import ListingEditor.Value

/-!
Requests for a column that a host makes with values of any kind. A request that makes no sense is reported and
answered with the margin.
-/

namespace ListingEditor.Indent

/-- A request for the column of a line. -/
structure Request where
  text : Value
  marker : Value
  commentColumn : Value
  codeColumn : Value

namespace Request

/-- What is wrong with a text that is no text. -/
def textFault (value : Value) : String :=
  "'" ++ value.kindName ++ "' object has no attribute 'lstrip'"

/-- What is wrong with a marker that is no text. A marker is repeated before it is compared, which makes numbers
of flags and fails for what cannot be repeated. -/
def markerFault (value : Value) : String :=
  match value with
  | .absent | .record _ => "unsupported operand type(s) for *: '" ++ value.kindName ++ "' and 'int'"
  | .flag _ => "startswith first arg must be str or a tuple of str, not int"
  | v => "startswith first arg must be str or a tuple of str, not " ++ v.kindName

/-- The placement that is asked for, or what is wrong with the request. A label needs no marker. -/
def placement (request : Request) : Except String Placement :=
  match request.text with
  | .text s =>
    match request.marker with
    | .text marker => .ok (Indent.placement marker.toList s.toList)
    | value =>
      if (Listing.label? (s.toList.dropWhile Text.isBlank)).isSome then .ok .margin
      else .error (markerFault value)
  | value => .error (textFault value)

/-- The answer to a request, and the report on it. A report on a text that cannot be shown fails. -/
def answer (request : Request) : Except ShowError (Value × List Log.Entry) :=
  match request.placement with
  | .ok .margin => .ok (.number 0, [])
  | .ok .comment => .ok (request.commentColumn, [])
  | .ok .code => .ok (request.codeColumn, [])
  | .error fault =>
    request.text.inspected.map fun shown =>
      (.number 0, [.debug ⟨"python_disassembly.py", "findIndentColumn"⟩ "PythonDisassemblyAutoindent"
        ("Failed finding indent for " ++ shown ++ ": " ++ fault)])

end Request

end ListingEditor.Indent
