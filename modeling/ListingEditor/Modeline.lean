import ListingEditor.Text.Blank
import ListingEditor.Text.Case
import ListingEditor.Text.Lines
import ListingEditor.Text.Slice

/-!
Modelines: a file can name its mode, and give values to variables, between two markers on one of its first two
lines.
-/

namespace ListingEditor

/-- What a modeline says: a mode, if it names one, and the values of variables. -/
structure Modeline where
  mode : Option (List Char)
  assignments : List (List Char × List Char)
  deriving DecidableEq, Repr

namespace Modeline

/-- The marker before and behind a modeline. -/
def fence : List Char := ['-', '*', '-']

/-- The text up to the closing marker, without the white space before it. A line feed that is not such white
space ends the search. -/
def untilFence? : List Char → Option (List Char)
  | [] => none
  | c :: cs =>
    if fence.isPrefixOf ((c :: cs).dropWhile Text.isSpace) then some []
    else if c = '\n' then none
    else (untilFence? cs).map (c :: ·)

/-- The text between the first two markers that can enclose a modeline. -/
def contents? : List Char → Option (List Char)
  | [] => none
  | c :: cs =>
    let here := if fence.isPrefixOf (c :: cs) then
      untilFence? (((c :: cs).drop fence.length).dropWhile Text.isSpace) else none
    here.or (contents? cs)

/-- Gives a value to a variable; one that has a value keeps its place. -/
def assign (assignments : List (List Char × List Char)) (name value : List Char) :
    List (List Char × List Char) :=
  match assignments with
  | [] => [(name, value)]
  | entry :: entries =>
    if entry.1 = name then (name, value) :: entries else entry :: assign entries name value

/-- The name of the item that gives the mode. -/
def modeName : List Char := "mode".toList

/-- Takes over one item. What has no colon is no item, and an item needs a name. -/
def readItem (modeline : Modeline) (item : List Char) : Modeline :=
  if ':' ∈ item then
    let name := Text.lower (Text.trim (item.takeWhile (· != ':')))
    let value := Text.trim ((item.dropWhile (· != ':')).drop 1)
    if name = modeName then { modeline with mode := some value }
    else if name.isEmpty then modeline
    else { modeline with assignments := assign modeline.assignments name value }
  else modeline

/-- Reads the text between the markers: the name of a mode alone, or items divided by semicolons. -/
def ofContents (contents : List Char) : Modeline :=
  if ':' ∈ contents then (contents.splitOn ';').foldl readItem ⟨none, []⟩
  else
    let name := Text.trim contents
    ⟨if name.isEmpty then none else some name, []⟩

/-- Reads the modeline of a line. -/
def ofLine (line : List Char) : Modeline :=
  match contents? line with
  | some contents => ofContents contents
  | none => ⟨none, []⟩

/-- How much of a file is searched for a modeline. -/
def headerSize : Int := 1024

/-- The first two lines of a file, of which only a part is read. -/
def magicComments (text : List Char) (size : Int) : List (List Char) :=
  ((Text.lines (Text.slice text 0 size)).map Text.lineBody).take 2

/-- The first of some lines whose modeline names a mode. -/
def firstWithMode? : List (List Char) → Option Modeline
  | [] => none
  | line :: lines =>
    if (ofLine line).mode.any (!·.isEmpty) then some (ofLine line) else firstWithMode? lines

/-- The modeline of a file, if it names a mode. -/
def ofHeader? (header : List Char) : Option Modeline :=
  firstWithMode? (magicComments header headerSize)

end Modeline

end ListingEditor
