import ListingEditor.Command
import ListingEditor.Indent.Placement
import ListingEditor.Text.Quoted

/-!
Indenters: how a line finds its column, and the commands of the return key, the tab key and the colon that
rest on it.
-/

namespace ListingEditor

/-- An indenter. The plain one follows the line above; the one for listings looks at the line itself. -/
inductive Indenter where
  | plain
  | listing (columns : Indent.Columns)
  deriving DecidableEq, Repr

namespace Indenter

/-- The name under which an indenter reports. -/
def owner : Indenter → String
  | .plain => "BasicAutoindent"
  | .listing _ => "PythonDisassemblyAutoindent"

/-- Whether the return key puts the finished line in order before it breaks it. -/
def reindentsOnReturn : Indenter → Bool
  | .plain => false
  | .listing _ => true

/-- The characters that do more than insert themselves. -/
def electricChars : Indenter → List Char
  | .plain => []
  | .listing _ => [':']

/-- Whether a line holds nothing but blanks. -/
def isBlankLine (b : Buffer) (line : Int) : Bool :=
  match b.indentEnd line, b.lineEnd line with
  | .ok place, .ok stop => place == stop
  | _, _ => false

/-- The nearest line at or above a line that is not blank, or else the first line. -/
def filledLine (b : Buffer) : Nat → Nat
  | 0 => 0
  | n + 1 => if isBlankLine b (n + 1 : Nat) then filledLine b n else n + 1

/-- The column that the line above gives to a line; the first line has none above it. -/
def columnFromAbove (b : Buffer) (line : Int) : Except EditError (Option Int) :=
  if line = 0 then .ok none
  else
    let above := line - 1
    (b.indentation (if 0 < above then filledLine b above.toNat else above)).map some

/-- The column at which a line should start, or none if it is to be left alone. -/
def findColumn (indenter : Indenter) (b : Buffer) (line : Int) : Except EditError (Option Int) :=
  match indenter with
  | .plain => columnFromAbove b line
  | .listing columns => (b.lineText line).map fun text => some (columns.column text)

/-- Where a caret belongs after the indentation of its line has changed. `start` is where the line starts,
`old` and `new` are where its indentation ended and ends. -/
def caretAfter (start old new caret : Int) : Int :=
  if caret < start then caret
  else if caret - old + new < start ∨ caret < old then new
  else caret - old + new

/-- The place that reindenting reports from. -/
def reindentPlace : Log.Place := ⟨"autoindent.py", "reindentLine"⟩

/-- Gives a line the indentation that belongs to it, and tells where the caret belongs then. The caret is not
moved. -/
def reindentLine (indenter : Indenter) (line : Int) : Command Int := do
  let start ← Step.ask (·.lineStart line)
  let caret ← Step.look (·.caret)
  let old ← Step.ask (·.indentEnd line)
  Step.report reindentPlace indenter.owner
    s!"linestart={start} indpos={old} pos={caret}"
  match ← Step.ask (indenter.findColumn · line) with
  | none => return caret
  | some column =>
    let blanks ← Step.ask (·.indentString column)
    Step.report reindentPlace indenter.owner
      (s!"linenum={line} indstr='" ++ String.ofList blanks ++ "'")
    Step.change (·.replaceRange start old blanks)
    let new ← Step.ask (·.indentEnd line)
    let moved ← Step.look (·.caret)
    Step.report reindentPlace indenter.owner s!"after: indent={new} cursor={moved}"
    return caretAfter start old new caret

/-- Gives the caret's line the indentation that belongs to it. -/
def reindentCurrentLine (indenter : Indenter) : Command Int := do
  indenter.reindentLine (← Step.look (·.currentLine))

/-- Removes the blanks between the caret and the text before it on its line. -/
def deleteBlanksBeforeCaret : Command Unit := do
  let caret ← Step.look (·.caret)
  let line ← Step.look (·.currentLine)
  let start ← Step.ask (·.lineStart line)
  let before ← Step.look (·.range start caret)
  let count := before.length - (Text.trimEnd Text.isBlank before).length
  if 0 < count then
    Step.change (·.replaceRange (caret - count) caret [])
    Step.change (·.goto (caret - count))

/-- Breaks the line at the caret and indents the new line. -/
def breakLine (indenter : Indenter) : Command Unit := do
  let newline ← Step.look (·.newline)
  Command.grouped do
    if indenter.reindentsOnReturn then
      let place ← indenter.reindentCurrentLine
      Step.change (·.goto place)
      deleteBlanksBeforeCaret
    let line ← Step.look (·.currentLine)
    let caret ← Step.look (·.caret)
    Step.report ⟨"autoindent.py", "processReturn"⟩ indenter.owner
      ("format = " ++ String.ofList (Text.quote newline) ++ s!" pos={caret}")
    Step.change (·.replaceRange caret caret newline)
    Step.change (·.goto (caret + newline.length))
    let place ← indenter.reindentLine (line + 1)
    Step.change (·.goto place)

/-- Gives the caret's line its indentation and moves the caret along. -/
def tabKey (indenter : Indenter) : Command Unit :=
  Command.grouped do
    Step.report ⟨"autoindent.py", "processTab"⟩ indenter.owner ""
    let place ← indenter.reindentCurrentLine
    Step.change (·.goto place)

/-- Moves the word in front of the caret to the margin and puts a colon behind it. -/
def completeLabel (owner : String) (start : Nat) (caret : Int) (before : List Char) :
    Command Unit := do
  let blanks := before.length - (before.dropWhile Text.isBlank).length
  Step.report ⟨"python_disassembly.py", "electricChar"⟩ owner
    ("label=" ++ String.ofList (Text.trim before) ++ s!" ws={blanks}")
  Command.grouped do
    if 0 < blanks then
      Step.change (·.replaceRange start (start + blanks) [])
      Step.change (·.goto (caret - blanks))
    Step.change (·.typeText [':'])

/-- What a typed character does besides inserting itself; false if it does nothing and has yet to be
inserted. A colon behind a word that stands alone makes it a label. -/
def electricChar (indenter : Indenter) (c : List Char) : Command Bool :=
  match indenter with
  | .plain => pure false
  | .listing _ =>
    if c ≠ [':'] then pure false
    else do
      let caret ← Step.look (·.caret)
      let line ← Step.look (·.currentLine)
      let start ← Step.ask (·.lineStart line)
      let before ← Step.look (·.range start caret)
      if Indent.isBareLabel before then
        completeLabel indenter.owner start caret before
        return true
      else return false

end Indenter

end ListingEditor
