import ListingEditor.Ini
import ListingEditor.Log
import ListingEditor.Preference.Schema

/-!
Settings in configuration files: reading them from a configuration and writing them to one.
-/

namespace ListingEditor.Preference.Settings

/-- The place that reading a configuration reports from. -/
def readPlace : Log.Place := ⟨"userparams.py", "readConfig"⟩

/-- The place that writing a configuration reports from. -/
def writePlace : Log.Place := ⟨"userparams.py", "configToText"⟩

/-- Takes over one entry of a configuration. An entry that names no preference, or whose text is no value of
it, is reported and changes nothing. -/
def readItem (settings : Settings) (sectionName option text : String) :
    Settings × List Log.Entry :=
  let owner := settings.schema.name
  match settings.schema.find? option with
  | none =>
    (settings, [.error readPlace owner
      ("Unknown preference " ++ option ++ " in section " ++ sectionName)])
  | some param =>
    match param.ofText text.toList with
    | .ok value =>
      (settings.set option value, [.debug readPlace owner
        ("Converted " ++ text ++ " to " ++ value.display ++ "(<class '" ++ value.kindName ++
          "'>) for " ++ sectionName ++ "[" ++ option ++ "]")])
    | .error e =>
      (settings, [.error readPlace owner
        ("Error converting " ++ option ++ " in section " ++ sectionName ++ ": " ++ e.message)])

/-- Takes over entries one after the other. -/
def readItems (settings : Settings) :
    List (List Char × List Char × List Char) → Settings × List Log.Entry
  | [] => (settings, [])
  | (sectionName, option, text) :: items =>
    let (first, log) := settings.readItem (String.ofList sectionName) (String.ofList option)
      (String.ofList text)
    let (last, rest) := first.readItems items
    (last, log ++ rest)

/-- Takes over a configuration. If it cannot be read, no value changes. -/
def readConfig (settings : Settings) (text : List Char) :
    Except Ini.Fault (Settings × List Log.Entry) :=
  (Ini.parse text).map fun doc => settings.readItems doc.items

/-- The text of a preference in a configuration. -/
def textOf (settings : Settings) (param : Param) : Except ShowError String :=
  param.written (settings.get param.keyword)

/-- The line of a preference: its keyword and the text of its value. -/
def optionLine (settings : Settings) (param : Param) : Except ShowError String :=
  (settings.textOf param).map fun text => param.keyword ++ " = " ++ text

/-- The lines of a layer: a header, a line for each preference, and an empty line. -/
def layerLines (settings : Settings) (layer : Layer) : Except ShowError (List String) :=
  (layer.params.mapM settings.optionLine).map fun options => ("[" ++ layer.name ++ "]") :: options ++ [""]

/-- The settings as a configuration, with one section for each layer that has something to save. A value that
cannot be shown cannot be written. -/
def toConfig (settings : Settings) : Except ShowError String :=
  (settings.schema.savedLayers.mapM settings.layerLines).map fun sections => "\n".intercalate sections.flatten

/-- The report on writing a configuration, which repeats it. -/
def configReport (settings : Settings) (text : String) : Log.Entry :=
  .debug writePlace settings.schema.name text

end ListingEditor.Preference.Settings
