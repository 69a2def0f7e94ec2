import ListingEditor.Indent.Indenter

/-!
Commands on whole lines: commenting a region in and out, and reindenting one.
-/

namespace ListingEditor.Region

/-- The lines that a selection covers, or the caret's line if nothing is selected. A selection that ends at
the start of a line does not cover that line. -/
def coveredLines (b : Buffer) : Int × Int :=
  if b.selection.1 = b.selection.2 then (b.currentLine, b.currentLine)
  else (b.lineOf b.selection.1, b.lineOf (b.selection.2 - 1))

/-- Selects from the start of one line to the end of another. -/
def selectLines (first last : Int) : Command Unit := do
  let start ← Step.ask (·.lineStart first)
  let stop ← Step.ask (·.lineEnd last)
  Step.change (·.select start stop)

/-- Extends the selection to whole lines and tells which they are. -/
def extendToLines : Command (Int × Int) := do
  let (first, last) ← Step.look coveredLines
  selectLines first last
  return (first, last)

/-- Removes a text at a position, if it stands there, and tells whether it did. -/
def removeLead (place : Int) (lead : List Char) : Command Bool := do
  let there ← Step.look (·.range place (place + lead.length))
  if 0 < lead.length ∧ there = lead then
    Step.change (·.replaceRange place (place + lead.length) [])
    return true
  else return false

/-- Whether a line counts as commented: it starts with the marker, or holds nothing but white space. -/
def isCommented (marker text : List Char) : Bool := Text.isAllSpace text || marker.isPrefixOf text

/-- Whether some of `count` lines is not commented. -/
def needsComments (marker : List Char) (b : Buffer) (first : Int) :
    Nat → Except EditError Bool
  | 0 => .ok false
  | count + 1 =>
    match b.lineText first with
    | .ok text =>
      if isCommented marker text then needsComments marker b (first + 1) count else .ok true
    | .error e => .error e

/-- Puts a marker and a space in front of a line. -/
def commentLine (marker : List Char) (line : Int) : Command Unit := do
  let start ← Step.ask (·.lineStart line)
  Step.change (·.insertAt start (marker ++ [' ']))

/-- Removes a marker at the front of a line, and a space behind it. -/
def uncommentLine (marker : List Char) (line : Int) : Command Unit := do
  let start ← Step.ask (·.lineStart line)
  let there ← Step.look (·.range start ((start : Int) + 2))
  let lead := if there = marker ++ [' '] then marker ++ [' '] else marker
  let _ ← removeLead start lead

/-- Comments the covered lines, or removes their comments, and tells which it did. Without a choice the
comments are removed if every line counts as commented. -/
def toggleComments (marker : List Char) (choice : Option Bool) : Command Bool :=
  Command.grouped do
    let (first, last) ← extendToLines
    let count := Command.lineSpan first last
    let add ← match choice with
      | some add => pure add
      | none => Step.ask (needsComments marker · first count)
    Command.forLines first count fun line =>
      if add then commentLine marker line else uncommentLine marker line
    selectLines first last
    return add

/-- Reindents the caret's line, or every line from the start of the selection to its end, and then selects
those lines. -/
def reindent (indenter : Indenter) : Command Unit := do
  let (start, stop) ← Step.look (·.selection)
  let place : Log.Place := ⟨"actions.py", "action"⟩
  if start = stop then
    Step.report place "Reindent" s!"no selection; cursor at {start}"
    indenter.tabKey
  else
    Step.report place "Reindent" s!"selection: {start} - {stop}"
    let first ← Step.look (·.lineOf start)
    let last ← Step.look (·.lineOf stop)
    Command.grouped do
      Command.forLines first (Command.lineSpan first last) fun line => do
        let _ ← indenter.reindentLine line
      let again ← Step.look (·.lineOf start)
      selectLines again last

end ListingEditor.Region
