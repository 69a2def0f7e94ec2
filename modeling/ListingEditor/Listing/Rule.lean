import ListingEditor.Listing.Span
import ListingEditor.Opcode
import ListingEditor.Pattern.Basic
import ListingEditor.Text.Blank
import ListingEditor.Text.Quoted
import ListingEditor.Text.Word

/-!
Rules: each proposes regions of a line for one category. The built-in rules read off the parts of a listing
directly; a rule of the user's own is a search pattern.
-/

namespace ListingEditor.Listing

/-- A rule proposes regions of the text in front of a comment. `shape` is the rule in the notation of search
patterns, for display. -/
structure Rule where
  shape : String
  category : Category
  candidates : List Char → List (Nat × Nat)

/-- A one-line account of the rule. -/
def Rule.describe (rule : Rule) : String :=
  "Rule(" ++ Text.quoted rule.shape ++ ", " ++ rule.category.name ++ ")"

/-- The length of what starts at a place, given the character before the place and the text after it. -/
abbrev Recognizer := Option Char → List Char → Option Nat

/-- What a recognizer finds in the rest of a text from left to right. The first `skip` characters belong to
something that has been found. -/
def scanFrom (recognize : Recognizer) (skip : Nat) (previous : Option Char) (offset : Nat) :
    List Char → List (Nat × Nat)
  | [] => []
  | c :: rest =>
    if skip = 0 then
      match recognize previous (c :: rest) with
      | some n =>
        (offset, offset + n) :: scanFrom recognize (n - 1) (some c) (offset + 1) rest
      | none => scanFrom recognize 0 (some c) (offset + 1) rest
    else scanFrom recognize (skip - 1) (some c) (offset + 1) rest

/-- What a recognizer finds in a text from left to right, without overlaps. -/
def scan (recognize : Recognizer) (text : List Char) : List (Nat × Nat) :=
  scanFrom recognize 0 none 0 text

/-- The number of digits that a text starts with. -/
def digitRun (text : List Char) : Nat := (text.takeWhile Text.isDigit).length

/-- A number between spaces: a source line or the offset of an instruction. -/
def lineNumberAt : Recognizer := fun previous text =>
  let n := digitRun text
  if previous = some ' ' ∧ 0 < n ∧ (text.drop n).head? = some ' ' then some n else none

/-- A character that an opcode's name may start with. -/
def isNameStart (c : Char) : Bool := c.isAlpha || c == '_'

/-- The length of the numeric suffix behind a word: a plus sign and digits that no word character
follows. Anything else is no suffix. -/
def suffixLength (text : List Char) : Nat :=
  match text with
  | '+' :: rest =>
    let n := digitRun rest
    if 0 < n ∧ !(rest.drop n).head?.any Text.isWord then n + 1 else 0
  | _ => 0

/-- A whole word with its numeric suffix. -/
def wordAt : Recognizer := fun previous text =>
  match text with
  | [] => none
  | c :: _ =>
    if isNameStart c && !previous.any Text.isWord then
      let n := (text.takeWhile Text.isWord).length
      some (n + suffixLength (text.drop n))
    else none

/-- The words that name opcodes. -/
def mnemonicCandidates (text : List Char) : List (Nat × Nat) :=
  (scan wordAt text).filter fun (start, stop) =>
    Opcode.isMnemonic ((text.take stop).drop start)

/-- The target of a jump in parentheses. -/
def jumpTargetAt : Recognizer := fun _ text =>
  match text with
  | '(' :: 't' :: 'o' :: ' ' :: rest =>
    let n := digitRun rest
    if 0 < n ∧ (rest.drop n).head? = some ')' then some (n + 5) else none
  | _ => none

/-- A character of a label's name. -/
def isLabelChar (c : Char) : Bool := Text.isWord c || c == '.' || c == '$'

/-- Where the label that a line declares stands: behind blanks, and in front of a colon. -/
def label? (text : List Char) : Option (Nat × Nat) :=
  let blanks := (text.takeWhile Text.isBlank).length
  let n := ((text.drop blanks).takeWhile isLabelChar).length
  if 0 < n ∧ (text.drop (blanks + n)).head? = some ':' then some (blanks, blanks + n) else none

/-- A hexadecimal digit. -/
def isHexDigit (c : Char) : Bool :=
  c.isDigit || ('a' ≤ c && c ≤ 'f') || ('A' ≤ c && c ≤ 'F')

/-- A bar and the operand byte behind it. -/
def byteAfterBarAt : Recognizer := fun _ text =>
  match text with
  | '|' :: a :: b :: _ => if isHexDigit a && isHexDigit b then some 3 else none
  | _ => none

/-- An operand byte and the bar behind it. -/
def byteBeforeBarAt : Recognizer := fun _ text =>
  match text with
  | a :: b :: '|' :: _ => if isHexDigit a && isHexDigit b then some 3 else none
  | _ => none

/-- A reference to a numbered label, in front of a space. -/
def labelRefAt : Recognizer := fun _ text =>
  match text with
  | 'L' :: rest =>
    let n := digitRun rest
    if 0 < n ∧ (rest.drop n).head? = some ' ' then some (n + 1) else none
  | _ => none

namespace Rule

/-- Line numbers and the offsets of instructions. -/
def lineNumber : Rule := ⟨"(?<= )\\d+(?= )", .lineNumber, scan lineNumberAt⟩

/-- The names of opcodes, put into any category. -/
def mnemonicAs (category : Category) : Rule :=
  ⟨"\\b[A-Za-z_]\\w*(?:\\+\\d+)?\\b", category, mnemonicCandidates⟩

/-- The names of opcodes. -/
def mnemonic : Rule := mnemonicAs .mnemonic

/-- The targets of jumps. -/
def jumpTarget : Rule := ⟨"\\(to \\d+\\)", .jumpTarget, scan jumpTargetAt⟩

/-- The declared label. -/
def label : Rule := ⟨"^([ \\t]*)([\\w.$]+):", .label, fun text => (label? text).toList⟩

/-- Operand bytes behind a bar. The two bytes of a pair share its bar, and the second one gets it. -/
def byteAfterBar : Rule :=
  ⟨"\\|[0-9a-fA-F]\x7b2\x7d", .operandByte, scan byteAfterBarAt⟩

/-- Operand bytes in front of a bar. -/
def byteBeforeBar : Rule :=
  ⟨"[0-9a-fA-F]\x7b2\x7d\\|", .operandByte, scan byteBeforeBarAt⟩

/-- References to numbered labels. -/
def labelRef : Rule := ⟨"L\\d+(?= )", .labelRef, scan labelRefAt⟩

/-- The rules for a listing. An earlier rule wins over a later one. -/
def standard : List Rule :=
  [lineNumber, mnemonic, jumpTarget, label, byteAfterBar, byteBeforeBar, labelRef]

/-- The rule that a search pattern makes: the extents of one group of each match, where they are not
empty. -/
def ofPattern (pattern : Pattern) (group : Nat) (category : Category) : Rule :=
  ⟨pattern.source, category, fun text =>
    (pattern.findAll text).filterMap fun found =>
      (found.extent? group).filter fun (start, stop) => start < stop⟩

end Rule

end ListingEditor.Listing
