import ListingEditor.Text.Slice

/-!
The edited text with its caret, its selection, the style of each character, and the bookkeeping of undo
groups. Positions may be any integers: a caret can be put outside the text, and positions that are negative
count from the end of the text wherever a part of it is taken.
-/

namespace ListingEditor

/-- An edited text. The selection runs between `anchor` and `caret`; the text before `endStyled` has been
styled since it was changed last. A host may leave the width of tabs open, and has memory for `memory` characters
or styles at once. -/
structure Buffer where
  text : List Char
  caret : Int
  anchor : Int
  styles : List Nat
  endStyled : Int
  tabWidth : Option Int
  useTabs : Bool
  eolMode : Int
  memory : Nat
  undoLevel : Int
  undoActions : Nat
  deriving DecidableEq, Repr

namespace Buffer

/-- A buffer that holds a text, with the caret at its start and nothing styled. -/
def ofText (text : List Char) (tabWidth : Option Int) (useTabs : Bool) (eolMode : Int) (memory : Nat) :
    Buffer :=
  { text, caret := 0, anchor := 0, styles := List.replicate text.length 0, endStyled := 0
    tabWidth, useTabs, eolMode, memory, undoLevel := 0, undoActions := 0 }

/-- The number of characters. -/
def length (b : Buffer) : Nat := b.text.length

/-- Exchanges the whole text. Settings and undo groups stay. -/
def setText (b : Buffer) (text : List Char) : Buffer :=
  { b with
    text, caret := 0, anchor := 0, styles := List.replicate text.length 0, endStyled := 0 }

/-- The text between two positions. -/
def range (b : Buffer) (start stop : Int) : List Char := Text.slice b.text start stop

/-- Where a position comes to lie when the text between two others is removed. -/
def positionAfterErase (start stop p : Int) : Int :=
  if stop ≤ p then p - (stop - start) else if start < p then start else p

/-- Removes the text between two positions, if the second is the greater. -/
def erase (b : Buffer) (start stop : Int) : Buffer :=
  if stop ≤ start then b
  else
    { b with
      text := Text.before b.text start ++ Text.after b.text stop
      styles := Text.splice b.styles start stop []
      caret := positionAfterErase start stop b.caret
      anchor := positionAfterErase start stop b.anchor
      endStyled := min b.endStyled start }

/-- Where a position comes to lie when `count` characters are put in at `place`: only what lies behind
moves. -/
def positionAfterInsert (place : Int) (count : Nat) (p : Int) : Int :=
  if place < p then p + count else p

/-- Puts a text in. -/
def insert (b : Buffer) (place : Int) (text : List Char) : Buffer :=
  { b with
    text := Text.before b.text place ++ text ++ Text.after b.text place
    styles := Text.splice b.styles place place (List.replicate text.length 0)
    caret := positionAfterInsert place text.length b.caret
    anchor := positionAfterInsert place text.length b.anchor
    endStyled := min b.endStyled place }

/-- Puts a text in at a position, or at the caret when the position is negative. -/
def insertAt (b : Buffer) (place : Int) (text : List Char) : Buffer :=
  b.insert (if place < 0 then b.caret else place) text

/-- Puts a text in at the caret, which ends up behind it. A selection is dropped, not replaced. -/
def typeText (b : Buffer) (text : List Char) : Buffer :=
  { b.insert b.caret text with caret := b.caret + text.length, anchor := b.caret + text.length }

/-- The two ends of the selection, the lesser first. -/
def selection (b : Buffer) : Int × Int := (min b.anchor b.caret, max b.anchor b.caret)

/-- Exchanges the text between two positions. -/
def replaceRange (b : Buffer) (start stop : Int) (text : List Char) : Buffer :=
  (b.erase start stop).insert start text

/-- Exchanges the selected text; the caret ends up behind the new text. -/
def replaceSelection (b : Buffer) (text : List Char) : Buffer :=
  let start := b.selection.1
  { b.replaceRange start b.selection.2 text with
    caret := start + text.length, anchor := start + text.length }

/-- Moves the caret to a position inside the text and drops the selection. -/
def goto (b : Buffer) (place : Int) : Buffer :=
  let inside := max 0 (min place b.length)
  { b with caret := inside, anchor := inside }

/-- Selects from `anchor` to `caret`, wherever they are. -/
def select (b : Buffer) (anchor caret : Int) : Buffer := { b with anchor, caret }

/-- Opens a group of changes that is undone at once. -/
def beginUndo (b : Buffer) : Buffer := { b with undoLevel := b.undoLevel + 1 }

/-- Closes a group of changes. The outermost group counts as one action. -/
def endUndo (b : Buffer) : Buffer :=
  { b with
    undoLevel := b.undoLevel - 1
    undoActions := if b.undoLevel - 1 = 0 then b.undoActions + 1 else b.undoActions }

/-- Gives a style to `count` characters. -/
def paint (b : Buffer) (start : Int) (count : Nat) (style : Nat) : Buffer :=
  { b with
    styles := Text.splice b.styles start (start + count) (List.replicate count style)
    endStyled := max b.endStyled (start + count) }

/-- The characters that end a line of a buffer in the given mode. -/
def lineEnding (mode : Int) : List Char :=
  if mode = 0 then ['\r', '\n'] else if mode = 1 then ['\r'] else ['\n']

/-- The characters that end a line which is added to the buffer. -/
def newline (b : Buffer) : List Char := lineEnding b.eolMode

end Buffer

end ListingEditor
