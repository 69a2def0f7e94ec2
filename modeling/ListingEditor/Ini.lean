import ListingEditor.Text.Blank
import ListingEditor.Text.Lines
import ListingEditor.Text.Quoted

/-!
Configuration files: sections of named options. Option names keep their case. Lines that start with a number sign
or a semicolon are comments; a line that is indented deeper than the option above it continues its value.
-/

namespace ListingEditor.Ini

/-- The name that messages give to a configuration without a file. -/
def sourceName : String := "<???>"

/-- Why a text is no configuration. Line numbers count from one. -/
inductive Fault where
  | noSection (line : Nat) (text : List Char)
  | repeatedSection (line : Nat) (name : List Char)
  | repeatedOption (line : Nat) (sectionName option : List Char)
  | badLines (lines : List (Nat × List Char))
  deriving DecidableEq, Repr

/-- A number with a blank in front if it has one digit only. -/
def twoPlaces (n : Nat) : String := if n < 10 then " " ++ toString n else toString n

/-- A text in quotes. -/
def quotedText (cs : List Char) : String := String.ofList (Text.quote cs)

/-- The message about a fault. -/
def Fault.message : Fault → String
  | .noSection line text =>
    "File contains no section headers.\nfile: " ++ Text.quoted sourceName ++ ", line: " ++
      toString line ++ "\n" ++ quotedText text
  | .repeatedSection line name =>
    "While reading from " ++ Text.quoted sourceName ++ " [line " ++ twoPlaces line ++
      "]: section " ++ quotedText name ++ " already exists"
  | .repeatedOption line sectionName option =>
    "While reading from " ++ Text.quoted sourceName ++ " [line " ++ twoPlaces line ++
      "]: option " ++ quotedText option ++ " in section " ++ quotedText sectionName ++
      " already exists"
  | .badLines lines =>
    "Source contains parsing errors: " ++ Text.quoted sourceName ++
      String.join (lines.map fun (line, text) =>
        "\n\t[line " ++ twoPlaces line ++ "]: " ++ quotedText text)

/-- A named value, as the lines it was written on. -/
structure Entry where
  name : List Char
  lines : List (List Char)
  deriving DecidableEq, Repr

/-- The value of an entry: its lines, without white space at the end. -/
def Entry.value (entry : Entry) : List Char :=
  Text.trimEnd Text.isSpace (['\n'].intercalate entry.lines)

/-- A section and its entries. -/
structure Section where
  name : List Char
  entries : List Entry
  deriving DecidableEq, Repr

/-- The section whose entries every section has. -/
def defaultName : List Char := "DEFAULT".toList

/-- What a configuration holds. The section of defaults stands apart from the others. -/
structure Document where
  defaults : List Entry
  sections : List Section
  deriving DecidableEq, Repr

/-- The entries of a section with the defaults: those come first, with the section's own value if it has
one. -/
def Document.entriesOf (doc : Document) (s : Section) : List (List Char × List Char) :=
  let own := s.entries.map fun entry => (entry.name, entry.value)
  let shared := doc.defaults.map fun entry =>
    (entry.name, (own.lookup entry.name).getD entry.value)
  shared ++ own.filter fun entry => (shared.lookup entry.1).isNone

/-- All entries, section by section, each with the name of its section. -/
def Document.items (doc : Document) : List (List Char × List Char × List Char) :=
  doc.sections.flatMap fun s => (doc.entriesOf s).map fun entry => (s.name, entry)

/-- What has been read so far. `current` is the section that options go to and `option` the option that a
deeper line continues; `indent` is how deep the last line stood that was no continuation. -/
structure State where
  defaults : List Entry
  sections : List Section
  current : Option (List Char)
  option : Option (List Char)
  seen : List (List Char × List Char)
  indent : Nat
  bad : List (Nat × List Char)

/-- The state before the first line. -/
def State.start : State :=
  { defaults := [], sections := [], current := none, option := none, seen := [], indent := 0
    bad := [] }

/-- Changes the entries of a section. -/
def State.updateEntries (s : State) (name : List Char) (f : List Entry → List Entry) : State :=
  if name = defaultName then { s with defaults := f s.defaults }
  else
    { s with
      sections := s.sections.map fun sec =>
        if sec.name = name then { sec with entries := f sec.entries } else sec }

/-- Adds a line to the value of an option. -/
def State.continueValue (s : State) (sectionName option line : List Char) : State :=
  s.updateEntries sectionName fun entries =>
    entries.map fun entry =>
      if entry.name = option then { entry with lines := entry.lines ++ [line] } else entry

/-- The name in a section's header: all that stands between the first bracket and the last one that
closes. -/
def header? (text : List Char) : Option (List Char) :=
  match text with
  | '[' :: rest =>
    let inside := (rest.reverse.dropWhile (· != ']')).reverse.dropLast
    if inside.isEmpty then none else some inside
  | _ => none

/-- The characters that separate the name of an option from its value. -/
def isDelimiter (c : Char) : Bool := c == '=' || c == ':'

/-- The name and the value on an option's line, which are divided by the first delimiter. -/
def option? (text : List Char) : Option (List Char × List Char) :=
  let name := text.takeWhile fun c => !isDelimiter c
  match text.dropWhile fun c => !isDelimiter c with
  | [] => none
  | _ :: rest => some (Text.trimEnd Text.isSpace name, Text.trim rest)

/-- Whether a line, given without the white space around it, is a comment. -/
def isComment (text : List Char) : Bool := text.head? == some '#' || text.head? == some ';'

/-- Opens a section. -/
def State.openSection (s : State) (number : Nat) (name : List Char) : Except Fault State :=
  if s.sections.any (·.name == name) then .error (.repeatedSection number name)
  else if name = defaultName then .ok { s with current := some name, option := none }
  else
    .ok { s with current := some name, option := none, sections := s.sections ++ [⟨name, []⟩] }

/-- Reads a line that starts an option. A line without a name is bad, but its option is known from then on. -/
def State.openOption (s : State) (number : Nat) (sectionName line text : List Char) :
    Except Fault State :=
  match option? text with
  | none => .ok { s with bad := s.bad ++ [(number, line)] }
  | some (name, value) =>
    let bad := if name.isEmpty then s.bad ++ [(number, line)] else s.bad
    if s.seen.contains (sectionName, name) then
      .error (.repeatedOption number sectionName name)
    else
      let known := { s with
        bad, seen := (sectionName, name) :: s.seen
        option := if name.isEmpty then none else some name }
      .ok (known.updateEntries sectionName (· ++ [⟨name, [value]⟩]))

/-- Reads a line that is not empty and no comment. -/
def State.readText (s : State) (number : Nat) (line text : List Char) : Except Fault State :=
  let depth := (line.takeWhile Text.isSpace).length
  match s.current, s.option with
  | some sectionName, some option =>
    if s.indent < depth then .ok (s.continueValue sectionName option text)
    else
      match header? text with
      | some name => { s with indent := depth }.openSection number name
      | none => { s with indent := depth }.openOption number sectionName line text
  | some sectionName, none =>
    match header? text with
    | some name => { s with indent := depth }.openSection number name
    | none => { s with indent := depth }.openOption number sectionName line text
  | none, _ =>
    match header? text with
    | some name => { s with indent := depth }.openSection number name
    | none => .error (.noSection number line)

/-- Reads a line. An empty line belongs to the value above it; a comment does not. -/
def State.readLine (s : State) (number : Nat) (line : List Char) : Except Fault State :=
  let text := Text.trim line
  if isComment text then .ok s
  else if text.isEmpty then
    match s.current, s.option with
    | some sectionName, some option => .ok (s.continueValue sectionName option [])
    | _, _ => .ok s
  else s.readText number line text

/-- Reads lines, the first of which has the given number. -/
def State.readLines (s : State) (number : Nat) : List (List Char) → Except Fault State
  | [] => .ok s
  | line :: lines =>
    match s.readLine number line with
    | .ok t => t.readLines (number + 1) lines
    | .error fault => .error fault

/-- Reads a configuration. A section or an option that is repeated, and an option before the first section, end
the reading at once; bad lines are collected. -/
def parse (text : List Char) : Except Fault Document :=
  match State.start.readLines 1 (Text.feedLines text) with
  | .error fault => .error fault
  | .ok s => if s.bad.isEmpty then .ok ⟨s.defaults, s.sections⟩ else .error (.badLines s.bad)

end ListingEditor.Ini
