import ListingEditor.Numeral
import ListingEditor.Text.Case
import ListingEditor.Value

/-!
Parameters: a preference is declared by a parameter, which turns the text of a configuration into a value
and a value into such text.
-/

namespace ListingEditor.Preference

/-- The kinds of parameters. A free parameter takes any text. -/
inductive Kind where
  | free
  | flag
  | number
  | text
  | char
  deriving DecidableEq, Repr

/-- The default value of a kind. -/
def Kind.default : Kind → Value
  | .free => .absent
  | .flag => .flag false
  | .number => .number 0
  | .text => .text ""
  | .char => .absent

/-- The declaration of a preference. `save` says whether it is written to a configuration, by any value that
counts as yes; `options` are further settings for the host. -/
structure Param where
  kind : Kind
  keyword : String
  default : Value
  help : String
  save : Value
  options : List (String × Value)
  deriving DecidableEq, Repr

namespace Param

/-- Declares a preference. Without a default of its own it has the one of its kind. -/
def declare (kind : Kind) (keyword : String) (default : Value) (help : String) : Param :=
  { kind, keyword, help, default := if default = .absent then kind.default else default
    save := .flag true, options := [] }

/-- Whether the preference is written to a configuration. -/
def saved (param : Param) : Bool := param.save.isTruthy

/-- The option that says whether a preference is saved; all others are for the host. -/
def saveOption : String := "save_to_file"

/-- The parameter with further settings. -/
def withOptions (param : Param) (options : List (String × Value)) : Param :=
  { param with
    save := (options.lookup saveOption).getD param.save
    options := options.filter (·.1 != saveOption) }

/-- A one-line account of the parameter, if its default can be shown. -/
def describe (param : Param) : Except ShowError String :=
  param.default.displayed.map fun default =>
    "keyword=" ++ param.keyword ++ ", default=" ++ default ++ ", help=" ++ param.help

end Param

/-- Why a text is no value of a parameter, or is no text at all. -/
inductive ParamError where
  | notText (kind : String)
  | malformedNumber (text : List Char)
  | infiniteNumber
  | undefinedNumber
  | notOneCharacter (keyword : String) (text : List Char)
  deriving DecidableEq, Repr

/-- The message of a conversion error. -/
def ParamError.message : ParamError → String
  | .notText kind => "'" ++ kind ++ "' object has no attribute 'startswith'"
  | .malformedNumber text =>
    "could not convert string to float: " ++ String.ofList (Text.quote text)
  | .infiniteNumber => "cannot convert float infinity to integer"
  | .undefinedNumber => "cannot convert float NaN to integer"
  | .notOneCharacter keyword text =>
    keyword ++ " must be a single character, not " ++ String.ofList (Text.quote text)

/-- A quotation mark of either kind. -/
def isQuote (c : Char) : Bool := c == '\'' || c == '"'

/-- A text without a quotation mark at its front, and then without one at its end. The two need not
match. -/
def unquote (text : List Char) : List Char :=
  let opened := match text with
    | c :: cs => if isQuote c then cs else c :: cs
    | [] => []
  if opened.getLast?.any isQuote then opened.dropLast else opened

/-- The texts that mean yes, in lower case. -/
def yesTexts : List (List Char) := ["yes".toList, "true".toList, "1".toList]

namespace Param

/-- The value that the text of a configuration gives to a parameter. -/
def ofText (param : Param) (text : List Char) : Except ParamError Value :=
  let bare := unquote text
  match param.kind with
  | .free | .text => .ok (.text (String.ofList bare))
  | .flag => .ok (.flag (yesTexts.contains (Text.lower bare)))
  | .number =>
    match Numeral.toInt bare with
    | .ok n => .ok (.number n)
    | .error (.malformed text) => .error (.malformedNumber text)
    | .error .infinite => .error .infiniteNumber
    | .error .undefined => .error .undefinedNumber
  | .char =>
    if bare.length = 1 then .ok (.text (String.ofList bare))
    else .error (.notOneCharacter param.keyword bare)

/-- The value that a parameter takes from what a host passes as text. -/
def ofValue (param : Param) (value : Value) : Except ParamError Value :=
  match value with
  | .text s => param.ofText s.toList
  | v => .error (.notText v.kindName)

/-- What a configuration holds for a value. Texts are quoted; a value that is no text stays what it is, unless
the parameter is for numbers, which are shown. -/
def toText (param : Param) (value : Value) : Except ShowError Value :=
  match param.kind with
  | .flag => .ok (.text (if value.isTruthy then "yes" else "no"))
  | .number => value.displayed.map .text
  | .free | .text | .char =>
    match value with
    | .text s => .ok (.text ("\"" ++ s ++ "\""))
    | v => .ok v

/-- The text that a value has in a configuration. -/
def written (param : Param) (value : Value) : Except ShowError String := do
  let text ← param.toText value
  text.displayed

end Param

end ListingEditor.Preference
