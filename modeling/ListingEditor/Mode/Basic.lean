import ListingEditor.Action
import ListingEditor.Pattern.Parser
import ListingEditor.Preference.Schema
import ListingEditor.Text.Case

/-!
Modes: how a kind of text is recognized, highlighted, indented and edited. A mode's three tests tell whether a
file is of its kind; any of them may ask that the mode be left out of the search.
-/

namespace ListingEditor

namespace Filename

/-- The last part of a path. -/
def base (path : List Char) : List Char := (path.reverse.takeWhile (· != '/')).reverse

/-- The extension of a file name: what follows its last dot. Dots at the front of the name do not count. -/
def extension (path : List Char) : List Char :=
  let name := (base path).dropWhile (· == '.')
  if '.' ∈ name then (name.reverse.takeWhile (· != '.')).reverse else []

end Filename

open Preference (Schema Layer Param Settings)

/-- Why a test of a mode gives no answer. Only `skip` is meant: it asks to leave the mode out. -/
inductive VerifyError where
  | skip (reason : String)
  | badPattern
  | patternNotText
  | patternCompound (kind : String)
  | extensionsNotText (kind : String)
  deriving DecidableEq, Repr

/-- The message of a failed test. -/
def VerifyError.message : VerifyError → String
  | .skip reason => reason
  | .badPattern => "bad pattern"
  | .patternNotText => "first argument must be string or compiled pattern"
  | .patternCompound kind => "unhashable type: '" ++ kind ++ "'"
  | .extensionsNotText kind => "'" ++ kind ++ "' object has no attribute 'split'"

/-- What a mode offers: nothing special, or all that listings need. -/
inductive Services where
  | plain
  | listing
  deriving DecidableEq, Repr

/-- A mode. `lineage` names the mode itself and those it derives from, nearest first; `label` is how the log
shows it. The magic test answers yes, no, or nothing. -/
structure Mode where
  name : String
  lineage : List String
  label : String
  keyword : String
  schema : Schema
  services : Services
  verifyFilename : Settings → List Char → Except VerifyError Bool
  verifyMagic : List Char → Except VerifyError (Option Bool)
  verifyKeyword : List Char → Except VerifyError Bool

instance : BEq Mode := ⟨fun a b => a.name == b.name⟩

/-- Why settings cannot be used. -/
inductive SettingError where
  | tabSize (value : Value)
  | commentChar (value : Value)
  | commentColumn (value : Value)
  deriving DecidableEq, Repr

/-- The value that cannot be used. -/
def SettingError.value : SettingError → Value
  | .tabSize value | .commentChar value | .commentColumn value => value

/-- What settings have to be like. -/
def SettingError.demand : SettingError → String
  | .tabSize _ => "tab_size must be a positive integer"
  | .commentChar _ => "comment_char must be a single non-blank character"
  | .commentColumn _ => "comment_column must be a non-negative integer"

/-- The message about settings that cannot be used. A value that cannot be shown is what it complains of
instead. -/
def SettingError.message (e : SettingError) : String :=
  match e.value.inspected with
  | .ok shown => e.demand ++ ", not " ++ shown
  | .error fault => fault.message

namespace Mode

/-- Whether a pattern occurs in a file name. The empty pattern stands for none. -/
def patternOccurs (source : String) (filename : List Char) : Except VerifyError Bool :=
  if source = "" then .ok false
  else
    match Pattern.ofString source false with
    | .ok pattern => .ok (pattern.occursIn filename)
    | .error _ => .error .badPattern

/-- Whether the pattern that a preference holds occurs in a file name. -/
def patternTest (value : Value) (filename : List Char) : Except VerifyError Bool :=
  match value with
  | .text source => patternOccurs source filename
  | v =>
    if !v.isTruthy then .ok false
    else
      match v with
      | .list _ | .record _ => .error (.patternCompound v.kindName)
      | _ => .error .patternNotText

/-- Whether the list that a preference holds has the extension of a file name. -/
def extensionTest (value : Value) (filename : List Char) : Except VerifyError Bool :=
  match value with
  | .text extensions =>
    .ok ((Text.words extensions.toList).contains (Filename.extension filename))
  | v => if v.isTruthy then .error (.extensionsNotText v.kindName) else .ok false

/-- The test for file names: a pattern of the mode, the pattern in the settings, and then the list of
extensions there. -/
def filenameTest (pattern : String) (settings : Settings) (filename : List Char) :
    Except VerifyError Bool := do
  if ← patternOccurs pattern filename then return true
  if ← patternTest (settings.get "filename_regex") filename then return true
  extensionTest (settings.get "extensions") filename

/-- The test for keywords: the keyword of the mode and its synonyms, in any case. -/
def keywordTest (keyword : String) (synonyms : List String) (given : List Char) : Bool :=
  (keyword :: synonyms).any fun name => Text.lower name.toList == Text.lower given

/-- How far into a file the magic of a listing is looked for. -/
def magicWindow : Nat := 1024

/-- What a line of a listing starts with by which the listing is known. -/
def listingMagic : List (List Char) :=
  ["# pydisasm version".toList, "# Python bytecode".toList, "Disassembly of".toList]

/-- Whether a line with the magic of listings starts in the rest of a text. `atStart` says that a line starts
here. -/
def hasListingMagic (atStart : Bool) : List Char → Bool
  | [] => false
  | c :: cs =>
    (atStart && listingMagic.any (·.isPrefixOf (c :: cs))) || hasListingMagic (c == '\n') cs

/-- The magic test of listings: yes, or no opinion. -/
def listingMagicTest (header : List Char) : Option Bool :=
  if hasListingMagic true (header.take magicWindow) then some true else none

/-- The layer that all preferences rest on. It declares none. -/
def rootLayer : Layer := ⟨"InstancePrefs", []⟩

/-- The preferences that all modes have. -/
def baseLayer : Layer :=
  ⟨"MajorModePrefs",
    [.declare .text "filename_regex" (.text "")
        ("Regular expression used to match against the filename part of the URL.  Successful " ++
          "match indicates the major mode is compatible with the filename"),
      .declare .text "extensions" (.text "")
        ("List of filename extensions to match to this major mode.  This is matched after the " ++
          "regular expression, and a successful match indicates the mode is compatible with " ++
          "the filename"),
      .declare .number "tab_size" (.number 8) "Number of columns between tab stops",
      .declare .flag "use_tabs" (.flag false)
        "Indent using tab characters rather than spaces"]⟩

/-- The preferences of listings. -/
def listingLayer : Layer :=
  ⟨"PythonDisassemblyPrefs",
    [.declare .char "comment_char" (.text "#") "Character that starts a comment",
      .declare .number "comment_column" (.number 32) "Column at which comments are indented",
      .declare .flag "source_in_comments" (.flag false)
        ("Style the text of a comment as the\nsource code fragment that produced the " ++
          "instructions"),
      .declare .text "extensions" (.text "dis pydis pyasm") ""]⟩

/-- The empty schema. -/
def rootSchema : Schema := ⟨"InstancePrefs", [rootLayer]⟩

/-- The preferences of a mode without any of its own. -/
def baseSchema : Schema := ⟨"MajorModePrefs", [baseLayer, rootLayer]⟩

/-- The preferences of the mode for listings. -/
def listingSchema : Schema := ⟨"PythonDisassemblyPrefs", [listingLayer, baseLayer, rootLayer]⟩

/-- The mode that all others derive from. -/
def base : Mode :=
  { name := "MajorMode", lineage := ["MajorMode"], label := "MajorMode"
    keyword := "Abstract_Major_Mode", schema := baseSchema, services := .plain
    verifyFilename := filenameTest ""
    verifyMagic := fun _ => .ok none
    verifyKeyword := fun given => .ok (keywordTest "Abstract_Major_Mode" [] given) }

/-- The mode for disassembly listings. -/
def listing : Mode :=
  { name := "PythonDisassemblyMode", lineage := ["PythonDisassemblyMode", "MajorMode"]
    label := "PythonDisassemblyMode", keyword := "pydisasm", schema := listingSchema
    services := .listing
    verifyFilename := filenameTest ""
    verifyMagic := fun header => .ok (listingMagicTest header)
    verifyKeyword := fun given => .ok (keywordTest "pydisasm" ["pydis", "python-disassembly"] given) }

/-- A mode that derives from another, with a name and a keyword of its own. -/
def derive (parent : Mode) (name label keyword : String) (synonyms : List String) : Mode :=
  { parent with
    name, label, keyword, lineage := name :: parent.lineage
    verifyKeyword := fun given => .ok (keywordTest keyword synonyms given) }

/-- Whether a mode is another one or derives from it. -/
def descendsFrom (mode other : Mode) : Bool := mode.lineage.contains other.name

/-- The value of a preference as a column. -/
def columnOf (settings : Settings) (keyword : String) : Int := (settings.get keyword).column

/-- The marker of comments, as characters. -/
def markerOf (settings : Settings) : List Char := (settings.get "comment_char").chars

/-- Whether a value can be the marker of comments: one character that is not white space. -/
def isMarker : Value → Bool
  | .text s =>
    match s.toList with
    | [c] => !Text.isSpace c
    | _ => false
  | _ => false

/-- Checks the settings before a session is made from them. -/
def validate (mode : Mode) (settings : Settings) : Except SettingError Unit :=
  let tabSize := settings.get "tab_size"
  if !tabSize.toInt?.any (1 ≤ ·) then .error (.tabSize tabSize)
  else
    match mode.services with
    | .plain => .ok ()
    | .listing =>
      let marker := settings.get "comment_char"
      let column := settings.get "comment_column"
      if !isMarker marker then .error (.commentChar marker)
      else if !column.toInt?.any (0 ≤ ·) then .error (.commentColumn column)
      else .ok ()

/-- What the highlighter of a mode is made from. -/
def highlighterOptions (mode : Mode) (settings : Settings) : Highlighter.Options :=
  match mode.services with
  | .plain => .plain
  | .listing => .listing (settings.get "comment_char") (settings.get "source_in_comments")

/-- What the indenter of a mode is made from. -/
def indenterOptions (mode : Mode) (settings : Settings) : Indenter.Options :=
  match mode.services with
  | .plain => .plain
  | .listing =>
    .listing (settings.get "comment_char") (settings.get "comment_column") (settings.get "tab_size")

/-- The indenter of a mode under the given settings. -/
def indenter (mode : Mode) (settings : Settings) : Indenter := .ofOptions (mode.indenterOptions settings)

/-- The actions of a mode. -/
def actions (mode : Mode) : List Action :=
  match mode.services with
  | .plain => []
  | .listing =>
    [.electricColon, .electricReturn, .reindent, .toggleComments]

end Mode

end ListingEditor
