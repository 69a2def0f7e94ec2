import ListingEditor.Command
import ListingEditor.Listing.Classify

/-!
Highlighting: the styles that a buffer's characters get from the regions of its lines.
-/

namespace ListingEditor

/-- How a buffer is highlighted: not at all, or as a listing. -/
inductive Highlighter where
  | plain
  | listing (marker : List Char) (sourceInComments : Bool)
  deriving DecidableEq, Repr

/-- A stretch of text of one style. -/
structure StyleRun where
  start : Int
  count : Int
  style : Nat
  deriving DecidableEq, Repr

/-- The number of the style of a category; zero is the style of all other text. -/
def Listing.Category.style : Listing.Category → Nat
  | .lineNumber => 1
  | .mnemonic => 2
  | .jumpTarget => 3
  | .label => 4
  | .operandByte => 5
  | .labelRef => 6
  | .comment => 7
  | .source => 8
  | .custom _ => 0

namespace Highlighter

/-- The name under which a highlighter reports. -/
def owner : Highlighter → String
  | .plain => "BaseLexer"
  | .listing _ _ => "PythonDisassemblyLexer"

/-- The styles that a highlighter uses, by number and name. -/
def styleNames : Highlighter → List (Nat × String)
  | .plain => [(0, "default_style")]
  | .listing _ _ =>
    [(0, "default_style"), (1, "number_style"), (2, "keyword_style"), (3, "scalar_style"),
      (4, "class_style"), (5, "dockey_style"), (6, "global_style"), (7, "comment_style"),
      (8, "string_style")]

/-- The runs from `place` to `stop`, given the regions between them. -/
def runsBetween (place stop : Int) : List Listing.Span → List StyleRun
  | [] => if place < stop then [⟨place, stop - place, 0⟩] else []
  | span :: spans =>
    (if place < span.start then [⟨place, span.start - place, 0⟩] else []) ++
      ⟨span.start, span.stop - span.start, span.category.style⟩ ::
        runsBetween span.stop stop spans

/-- The runs of a part of a buffer. -/
def runs (highlighter : Highlighter) (b : Buffer) (start stop : Int) : List StyleRun :=
  let text := b.range start stop
  match highlighter with
  | .plain => [⟨start, text.length, 0⟩]
  | .listing marker sourceInComments =>
    runsBetween start stop (Listing.classifyText marker sourceInComments start text)

/-- Where styling has to begin so that it covers a position: a listing is styled by whole lines. -/
def adjustStart (highlighter : Highlighter) (b : Buffer) (start : Int) : Except EditError Int :=
  match highlighter with
  | .plain => .ok start
  | .listing _ _ =>
    match b.columnOf start with
    | .error e => .error e
    | .ok column =>
      if column = 0 then .ok start
      else (b.lineStart (b.lineOf start)).map fun place : Nat => (place : Int)

/-- Paints runs, leaving out those that are empty. -/
def paintRuns (b : Buffer) (runs : List StyleRun) : Buffer :=
  runs.foldl (fun b run => if 0 < run.count then b.paint run.start run.count.toNat run.style else b) b

/-- Whether there can be as many styles as a run has. -/
def StyleRun.fits (b : Buffer) (run : StyleRun) : Bool := (b.countFault? run.count).isNone

/-- Styles a part of the buffer. Painting stops at a run that is too long. -/
def styleText (highlighter : Highlighter) (start stop : Int) : Command Unit := do
  Step.report ⟨"stclexer.py", "styleText"⟩ highlighter.owner
    s!"Styling text from {start} - {stop}"
  let first ← Step.ask (highlighter.adjustStart · start)
  let runs ← Step.look (highlighter.runs · first stop)
  let tooLong ← Step.look fun b => runs.findSome? fun run => b.countFault? run.count
  Step.change fun b => paintRuns b (runs.takeWhile (StyleRun.fits b))
  match tooLong with
  | some e => Step.fail e
  | none => return

end Highlighter

end ListingEditor
