import ListingEditor.Buffer.Basic
import ListingEditor.Text.Blank
import ListingEditor.Text.Lines

/-!
The lines of a buffer. A line ends at a carriage return, at a line feed, or at the two together; no other
character ends one. Lines are numbered from zero, and a negative number counts from the last line.
-/

namespace ListingEditor

/-- Why an editing step could not be carried out. -/
inductive EditError where
  | noSuchLine
  | zeroTabWidth
  | unmeasuredTab
  | unknownTabRun
  | columnOutOfRange
  | outOfMemory
  | notImplemented
  | noPreference (keyword : String)
  deriving DecidableEq, Repr

/-- The message of an editing error. -/
def EditError.message : EditError → String
  | .noSuchLine => "list index out of range"
  | .zeroTabWidth => "integer division or modulo by zero"
  | .unmeasuredTab => "unsupported operand type(s) for //: 'int' and 'NoneType'"
  | .unknownTabRun => "can't multiply sequence by non-int of type 'NoneType'"
  | .columnOutOfRange => "cannot fit 'int' into an index-sized integer"
  | .outOfMemory => ""
  | .notImplemented => ""
  | .noPreference keyword => "MajorModeSession has no attribute " ++ keyword

namespace Buffer

/-- Where the lines after the first start, in the rest of a text that begins at `offset`. -/
def lineStartsFrom (offset : Nat) : List Char → List Nat
  | [] => []
  | '\r' :: '\n' :: rest => (offset + 2) :: lineStartsFrom (offset + 2) rest
  | c :: rest =>
    if Text.isReturn c then (offset + 1) :: lineStartsFrom (offset + 1) rest
    else lineStartsFrom (offset + 1) rest

/-- Where the lines of a text start. -/
def lineStarts (text : List Char) : List Nat := 0 :: lineStartsFrom 0 text

/-- The number of lines. -/
def lineCount (b : Buffer) : Nat := (lineStarts b.text).length

/-- The line that holds a position: the last one that starts at or before it. -/
def lineOf (b : Buffer) (place : Int) : Int :=
  ((((lineStarts b.text).countP fun start : Nat => (start : Int) ≤ place) : Nat) : Int) - 1

/-- The line that holds the caret. -/
def currentLine (b : Buffer) : Int := b.lineOf b.caret

/-- Where a line starts; behind the last line, the end of the text. -/
def lineStart (b : Buffer) (line : Int) : Except EditError Nat :=
  let starts := lineStarts b.text
  if starts.length ≤ line then .ok b.length
  else
    let index := if line < 0 then line + starts.length else line
    if index < 0 then .error .noSuchLine
    else
      match starts[index.toNat]? with
      | some start => .ok start
      | none => .error .noSuchLine

/-- Where the line that starts at an offset ends, its line end not included. -/
def endOfLineAt (b : Buffer) (start : Nat) : Nat :=
  start + ((b.text.drop start).takeWhile fun c => !Text.isReturn c).length

/-- Where a line ends, its line end not included. -/
def lineEnd (b : Buffer) (line : Int) : Except EditError Nat :=
  (b.lineStart line).map b.endOfLineAt

/-- A line without its line end. -/
def lineText (b : Buffer) (line : Int) : Except EditError (List Char) :=
  (b.lineStart line).map fun start : Nat => b.range start (b.endOfLineAt start)

/-- The first place of a line that is not indentation. -/
def indentEnd (b : Buffer) (line : Int) : Except EditError Nat :=
  (b.lineStart line).map fun start : Nat =>
    start + ((b.range start (b.endOfLineAt start)).takeWhile Text.isBlank).length

/-- The column behind a character: a tab goes on to the next multiple of the tab width. -/
def nextColumn (tabWidth : Option Int) (column : Int) (c : Char) : Except EditError Int :=
  if c = '\t' then
    match tabWidth with
    | none => .error .unmeasuredTab
    | some width =>
      if width = 0 then .error .zeroTabWidth else .ok ((column.fdiv width + 1) * width)
  else .ok (column + 1)

/-- The column behind a text that starts at a line's start. -/
def columnBehind (tabWidth : Option Int) (text : List Char) : Except EditError Int :=
  text.foldlM (nextColumn tabWidth) 0

/-- The column of a position. -/
def columnOf (b : Buffer) (place : Int) : Except EditError Int :=
  match b.lineStart (b.lineOf place) with
  | .ok start => columnBehind b.tabWidth (b.range start place)
  | .error e => .error e

/-- The column at which the text of a line starts. -/
def indentation (b : Buffer) (line : Int) : Except EditError Int :=
  match b.indentEnd line with
  | .ok place => b.columnOf place
  | .error e => .error e

/-- The greatest count that can be asked for: the greatest that a signed word of 64 bits holds. -/
def countLimit : Int := 0x7fffffffffffffff

/-- The greatest count that can be asked for and for which there is memory. -/
def room (b : Buffer) : Int := min b.memory countLimit

/-- Why there cannot be so many of something, if there cannot. -/
def countFault? (b : Buffer) (count : Int) : Option EditError :=
  if count < -countLimit - 1 ∨ countLimit < count then some .columnOutOfRange
  else if b.memory < count then some .outOfMemory
  else none

/-- A character again and again; not at all if the count is negative. -/
def repeated (b : Buffer) (c : Char) (count : Int) : Except EditError (List Char) :=
  match b.countFault? count with
  | some e => .error e
  | none => .ok (List.replicate count.toNat c)

/-- Spaces, as many as there are columns. -/
def blanks (b : Buffer) (columns : Int) : Except EditError (List Char) := b.repeated ' ' columns

/-- The run of spaces that is as wide as a tab. -/
def tabRun (b : Buffer) : Except EditError (List Char) :=
  match b.tabWidth with
  | some width => b.blanks width
  | none => .error .unknownTabRun

/-- The blanks that reach a column from a line's start. With tabs, each run of spaces as wide as a tab becomes
one. -/
def indentString (b : Buffer) (columns : Int) : Except EditError (List Char) :=
  match b.blanks columns with
  | .error e => .error e
  | .ok spaces =>
    if b.useTabs then b.tabRun.map fun run => Text.replace run ['\t'] spaces
    else .ok spaces

/-- The lines with, under each, the last digits of its styles. -/
def showStyles (b : Buffer) : List Char :=
  let shown := (lineStarts b.text).flatMap fun start =>
    let stop := b.endOfLineAt start
    let digits := (Text.slice b.styles start stop).map fun style => (style % 10).digitChar
    [b.range start stop, digits]
  ['\n'].intercalate shown

end Buffer

end ListingEditor
