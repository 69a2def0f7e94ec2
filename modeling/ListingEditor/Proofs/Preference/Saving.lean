import ListingEditor.Mode.Basic
import ListingEditor.Preference.Config
import ListingEditor.Proofs.Ini
import ListingEditor.Proofs.Numeral
import ListingEditor.Proofs.Preference.Settings
import ListingEditor.Proofs.Preference.Written

/-!
Preferences that are saved and loaded again: a value is read back from its text, and settings from their
configuration.
-/

namespace ListingEditor.Preference

open Ini (IsKey IsValue Block)
open Text (Solid)

/-- The values that a preference of a kind is meant to have and that can be saved: a number that a double holds
exactly, and a text of one line. -/
inductive Kind.Admits : Kind → Value → Prop where
  | flag (b : Bool) : Admits .flag (.flag b)
  | number {n : Int} (hbound : n.natAbs ≤ 2 ^ 53) : Admits .number (.number n)
  | char {s : String} (hone : s.toList.length = 1) (hline : '\n' ∉ s.toList) : Admits .char (.text s)
  | text {s : String} (hline : '\n' ∉ s.toList) : Admits .text (.text s)
  | free {s : String} (hline : '\n' ∉ s.toList) : Admits .free (.text s)

theorem unquote_quoted (text : List Char) : unquote ('"' :: text ++ ['"']) = text := by
  simp [unquote, isQuote]

theorem unquote_eq_self {text : List Char} (hquotes : ∀ c ∈ text, isQuote c = false) : unquote text = text := by
  cases text with
  | nil => rfl
  | cons c text =>
    have hlast : (c :: text).getLast?.any isQuote = false := by
      rw [List.getLast?_eq_some_getLast (List.cons_ne_nil c text), Option.any_some]
      exact hquotes _ (List.getLast_mem _)
    simp only [unquote, hquotes c List.mem_cons_self, Bool.false_eq_true, if_false, hlast]

theorem numeral_chars {n : Int} {c : Char} (hc : c ∈ (toString n).toList) : c = '-' ∨ c.isDigit = true := by
  rw [Numeral.toList_toString_int] at hc
  split at hc
  · exact (List.mem_cons.mp hc).imp_right (Nat.isDigit_of_mem_toDigits (by decide) (by decide))
  · exact .inr (Nat.isDigit_of_mem_toDigits (by decide) (by decide) hc)

theorem numeral_ne_nil (n : Int) : (toString n).toList ≠ [] := by
  rw [Numeral.toList_toString_int]
  split
  · exact List.cons_ne_nil _ _
  · exact Nat.toDigits_ne_nil

theorem unquote_numeral (n : Int) : unquote (toString n).toList = (toString n).toList := by
  apply unquote_eq_self
  intro c hc
  rcases numeral_chars hc with rfl | hdigit
  · rfl
  · rw [← Bool.not_eq_true, isQuote, Bool.or_eq_true, beq_iff_eq, beq_iff_eq]
    rintro (rfl | rfl) <;> cases hdigit

/-- The text that a flag, a number or a text has in a configuration. -/
def plainText : Value → String
  | .flag b => if b then "yes" else "no"
  | .number n => toString n
  | .text s => "\"" ++ s ++ "\""
  | _ => ""

theorem displayed_of_isShowable {value : Value} (hshowable : value.isShowable = true) :
    value.displayed = .ok value.display := if_pos hshowable

/-- A number that a double holds exactly is short enough to be shown. -/
theorem displayed_number {n : Int} (hbound : n.natAbs ≤ 2 ^ 53) :
    (Value.number n).displayed = .ok (toString n) := by
  have hlimit : 2 ^ 53 < Text.longNumber := by decide +kernel
  have hshort : (Value.number n).isShowable = true := by
    rw [Value.isShowable, decide_eq_true_eq]
    exact Nat.lt_of_le_of_lt hbound hlimit
  exact displayed_of_isShowable hshort

/-- What is read from a text can be shown. -/
theorem Param.isShowable_of_ofText {param : Param} {text : List Char} {value : Value}
    (hread : param.ofText text = .ok value) : value.isShowable = true := by
  unfold Param.ofText at hread
  dsimp only at hread
  generalize hkind : param.kind = kind at hread
  cases kind with
  | free | text | flag =>
    cases hread
    rfl
  | number =>
    dsimp only at hread
    cases hnumber : Numeral.toInt (unquote text) with
    | error fault =>
      rw [hnumber] at hread
      cases fault <;> cases hread
    | ok n =>
      rw [hnumber] at hread
      cases hread
      rw [Value.isShowable, decide_eq_true_eq]
      exact Numeral.toInt_lt_longNumber hnumber
  | char =>
    dsimp only at hread
    split at hread
    · cases hread
      rfl
    · cases hread

/-- What a configuration holds for a value that can be shown can be shown. -/
theorem Param.toText_isShowable (param : Param) {value : Value} (hshowable : value.isShowable = true) :
    ∃ text, param.toText value = .ok text ∧ text.isShowable = true := by
  unfold Param.toText
  cases param.kind with
  | flag => exact ⟨_, rfl, rfl⟩
  | number =>
    rw [displayed_of_isShowable hshowable]
    exact ⟨_, rfl, rfl⟩
  | free | text | char =>
    dsimp only
    split
    · exact ⟨_, rfl, rfl⟩
    · exact ⟨_, rfl, hshowable⟩

theorem Param.written_of_isShowable (param : Param) {value : Value} (hshowable : value.isShowable = true) :
    ∃ text, param.written value = .ok text := by
  obtain ⟨text, htext, hshown⟩ := param.toText_isShowable hshowable
  refine ⟨text.display, ?_⟩
  rw [Param.written, htext]
  exact displayed_of_isShowable hshown

/-- A value that a preference is meant to have can be written. -/
theorem Param.written_eq {param : Param} {value : Value} (hadmits : param.kind.Admits value) :
    param.written value = .ok (plainText value) := by
  unfold Param.written Param.toText
  generalize param.kind = kind at hadmits ⊢
  cases hadmits with
  | flag b => cases b <;> rfl
  | number hbound =>
    simp only [displayed_number hbound]
    rfl
  | char hone hline | text hline | free hline => rfl

/-- A value that a preference is meant to have is read back from its text. -/
theorem Param.ofText_plainText {param : Param} {value : Value} (hadmits : param.kind.Admits value) :
    param.ofText (plainText value).toList = .ok value := by
  have hquoted (s : String) : unquote ("\"" ++ s ++ "\"").toList = s.toList := by
    rw [String.toList_append, String.toList_append]
    exact unquote_quoted s.toList
  unfold Param.ofText
  generalize param.kind = kind at hadmits ⊢
  cases hadmits with
  | flag b => cases b <;> rfl
  | number hbound => simp only [plainText, unquote_numeral, Numeral.toInt_toString hbound]
  | char hone hline => simp only [plainText, hquoted, hone, if_true, String.ofList_toList]
  | text hline => simp only [plainText, hquoted, String.ofList_toList]
  | free hline => simp only [plainText, hquoted, String.ofList_toList]

theorem isValue_quoted {s : String} (hline : '\n' ∉ s.toList) : IsValue ("\"" ++ s ++ "\"").toList := by
  have hquote : Solid ['"'] := Text.solid_of_forall (List.cons_ne_nil _ _) (List.forall_mem_singleton.mpr rfl)
  rw [String.toList_append, String.toList_append]
  refine ⟨hquote.append s.toList hquote, ?_⟩
  simpa using hline

theorem isValue_numeral (n : Int) : IsValue (toString n).toList := by
  apply Ini.isValue_of_forall (numeral_ne_nil n)
  intro c hc
  rcases numeral_chars hc with rfl | hdigit
  · rfl
  · exact Numeral.isSpace_of_isDigit hdigit

/-- The text of a value can be written on one line. -/
theorem isValue_plainText {kind : Kind} {value : Value} (hadmits : kind.Admits value) :
    IsValue (plainText value).toList := by
  cases hadmits with
  | flag b =>
    have hword (word : String) (hne : word.toList ≠ []) (hspace : word.toList.any Text.isSpace = false) :
        IsValue word.toList :=
      Ini.isValue_of_forall hne fun c hc => Bool.not_eq_true _ ▸ List.any_eq_false.mp hspace c hc
    cases b with
    | true => exact hword "yes" (by decide) (by decide)
    | false => exact hword "no" (by decide) (by decide)
  | number hbound => exact isValue_numeral _
  | char hone hline | text hline | free hline => exact isValue_quoted hline

namespace Settings

/-- The text of a preference that has a value of its kind. -/
def plainTextOf (settings : Settings) (param : Param) : String := plainText (settings.get param.keyword)

/-- The sections of a configuration. -/
def blocks (settings : Settings) : List Block :=
  settings.schema.savedLayers.map fun layer =>
    ⟨layer.name.toList, layer.params.map fun param => (param.keyword.toList, (settings.plainTextOf param).toList)⟩

/-- What settings are written to is a configuration with these sections. -/
theorem toConfig_eq_write {settings : Settings}
    (htexts : ∀ layer ∈ settings.schema.savedLayers, ∀ param ∈ layer.params,
      settings.textOf param = .ok (settings.plainTextOf param)) :
    ∃ text, settings.toConfig = .ok text ∧ text.toList = Ini.write settings.blocks := by
  refine ⟨_, toConfig_of_texts htexts, ?_⟩
  have hlayer (layer : Layer) :
      (("[" ++ layer.name ++ "]") :: layer.params.map (fun param =>
        param.keyword ++ " = " ++ settings.plainTextOf param) ++ [""]).map String.toList =
      (Block.mk layer.name.toList
        (layer.params.map fun param => (param.keyword.toList, (settings.plainTextOf param).toList))).body ++ [[]] := by
    simp [Block.body, Ini.headerLine, Ini.optionLine]
  simp only [String.toList_intercalate, Ini.write, blocks, List.flatMap_map, List.map_flatMap, hlayer]
  rfl

/-- Settings that have, for each preference of their schema, a value that it is meant to have. -/
structure Proper (settings : Settings) : Prop where
  keywords : settings.values.map (·.1) = settings.schema.keywords
  values : ∀ param ∈ settings.schema.params, param.kind.Admits (settings.get param.keyword)

end Settings

namespace Schema

/-- A schema whose settings can be saved as a whole. -/
structure Portable (schema : Schema) : Prop where
  saved : ∀ layer ∈ schema.layers, ∀ param ∈ layer.params, param.saved = true
  keywords : ∀ layer ∈ schema.layers, ∀ param ∈ layer.params, IsKey param.keyword.toList
  names : ∀ layer ∈ schema.layers,
    layer.name.toList ≠ [] ∧ '\n' ∉ layer.name.toList ∧ layer.name.toList ≠ Ini.defaultName
  distinct : (schema.layers.map (·.name)).Nodup

/-- The parameters that are saved, each with the name of its layer. -/
def savedParams (schema : Schema) : List (List Char × Param) :=
  schema.savedLayers.flatMap fun layer => layer.params.map fun param => (layer.name.toList, param)

theorem exists_layer_of_mem_savedLayers {schema : Schema} {layer : Layer} (hmem : layer ∈ schema.savedLayers) :
    ∃ source ∈ schema.layers, source.name = layer.name :=
  List.mem_map.mp ((savedFrom_names_sublist [] schema.layers).subset (List.mem_map_of_mem hmem))

theorem Portable.params_sublist {schema : Schema} (hportable : schema.Portable) {layer : Layer}
    (hmem : layer ∈ schema.savedLayers) : layer.params.Sublist schema.params := by
  rw [← flatMap_savedLayers hportable.saved]
  exact List.sublist_flatten_of_mem (List.mem_map_of_mem hmem)

end Schema

namespace Settings

variable {settings : Settings}

theorem blocks_writable (hportable : settings.schema.Portable) (hproper : settings.Proper) :
    ∀ block ∈ settings.blocks, block.Writable := by
  intro block hblock
  obtain ⟨layer, hlayer, rfl⟩ := List.mem_map.mp hblock
  obtain ⟨source, hsource, hname⟩ := Schema.exists_layer_of_mem_savedLayers hlayer
  have hnames := hportable.names source hsource
  rw [hname] at hnames
  have hparams := hportable.params_sublist hlayer
  refine ⟨hnames.1, hnames.2.1, hnames.2.2, ?_, ?_, ?_⟩
  · intro option hoption
    obtain ⟨param, hparam, rfl⟩ := List.mem_map.mp hoption
    obtain ⟨declaring, hdeclaring, hdeclared⟩ := Schema.exists_layer_of_mem_params (hparams.subset hparam)
    exact hportable.keywords declaring hdeclaring param hdeclared
  · intro option hoption
    obtain ⟨param, hparam, rfl⟩ := List.mem_map.mp hoption
    exact isValue_plainText (hproper.values param (hparams.subset hparam))
  · have hkeywords := (hparams.map Param.keyword).nodup settings.schema.keywords_nodup
    have htexts := hkeywords.map fun _ _ => String.toList_injective
    rw [List.map_map] at htexts ⊢
    exact htexts

/-- Each preference has the text that belongs to a value of its kind. -/
theorem texts_of_proper (hportable : settings.schema.Portable) (hproper : settings.Proper) :
    ∀ layer ∈ settings.schema.savedLayers, ∀ param ∈ layer.params,
      settings.textOf param = .ok (settings.plainTextOf param) := fun _ hlayer param hparam =>
  Param.written_eq (hproper.values param ((hportable.params_sublist hlayer).subset hparam))

theorem blocks_distinct (hportable : settings.schema.Portable) : (settings.blocks.map Block.name).Nodup := by
  have hsublist := Schema.savedFrom_names_sublist [] settings.schema.layers
  have hnames := (hsublist.nodup hportable.distinct).map fun _ _ => String.toList_injective
  rw [List.map_map] at hnames
  rw [blocks, List.map_map]
  exact hnames

theorem set_get_of_mem {param : Param} (hmem : param ∈ settings.schema.params) {source : Settings}
    (hadmits : param.kind.Admits (source.get param.keyword)) (sectionName : String) :
    ∃ entry, settings.readItem sectionName param.keyword (source.plainTextOf param) =
      (settings.set param.keyword (source.get param.keyword), [entry]) ∧ entry.severity = .debug := by
  unfold readItem
  rw [Schema.find?_of_mem_params hmem]
  dsimp only
  rw [plainTextOf, Param.ofText_plainText hadmits]
  exact ⟨_, rfl, rfl⟩

/-- Entries that name preferences and hold texts of proper values are taken over, and nothing is reported as an
error. -/
theorem readItems_eq {source : Settings} {items : List (List Char × Param)}
    (hmem : ∀ item ∈ items, item.2 ∈ settings.schema.params)
    (hadmits : ∀ item ∈ items, item.2.kind.Admits (source.get item.2.keyword)) :
    ∃ log, settings.readItems (items.map fun item =>
          (item.1, item.2.keyword.toList, (source.plainTextOf item.2).toList)) =
        (settings.setAll (items.map fun item => (item.2.keyword, source.get item.2.keyword)), log) ∧
      ∀ entry ∈ log, entry.severity = .debug := by
  induction items generalizing settings with
  | nil => exact ⟨[], rfl, nofun⟩
  | cons item items ih =>
    obtain ⟨hfirst, hrest⟩ := List.forall_mem_cons.mp hmem
    obtain ⟨hvalue, hvalues⟩ := List.forall_mem_cons.mp hadmits
    obtain ⟨entry, hread, hdebug⟩ := set_get_of_mem hfirst hvalue (String.ofList item.1)
    have hnext : ∀ item' ∈ items,
        item'.2 ∈ (settings.set item.2.keyword (source.get item.2.keyword)).schema.params := hrest
    obtain ⟨log, hlog, hall⟩ := ih hnext hvalues
    refine ⟨entry :: log, ?_, ?_⟩
    · rw [List.map_cons, readItems, String.ofList_toList, String.ofList_toList, hread]
      dsimp only
      rw [hlog]
      rfl
    · intro other hother
      rcases List.mem_cons.mp hother with rfl | hlater
      · exact hdebug
      · exact hall other hlater

/-- Settings of a schema that can be saved are loaded as they were, and no error is reported. -/
theorem readConfig_toConfig_of_portable (hportable : settings.schema.Portable) (hproper : settings.Proper) :
    ∃ text log, settings.toConfig = .ok text ∧
      (defaults settings.schema).readConfig text.toList = .ok (settings, log) ∧
      ∀ entry ∈ log, entry.severity = .debug := by
  obtain ⟨text, hwritten, hblocksWritten⟩ := toConfig_eq_write (texts_of_proper hportable hproper)
  obtain ⟨doc, hparse, hitems⟩ :=
    Ini.parse_write (blocks_writable hportable hproper) (blocks_distinct hportable)
  -- what is read is one entry for each preference, with the name of its layer
  have hsaved : settings.schema.savedParams.map (·.2) = settings.schema.params := by
    rw [← Schema.flatMap_savedLayers hportable.saved, Schema.savedParams, List.map_flatMap]
    simp
  have hblocks : settings.blocks.flatMap Block.items = settings.schema.savedParams.map fun item =>
      (item.1, item.2.keyword.toList, (settings.plainTextOf item.2).toList) := by
    simp only [blocks, Block.items, Schema.savedParams, List.flatMap_map, List.map_flatMap, List.map_map]
    rfl
  have hmem (item : List Char × Param) (hitem : item ∈ settings.schema.savedParams) :
      item.2 ∈ (defaults settings.schema).schema.params := by
    rw [defaults, ← hsaved]
    exact List.mem_map_of_mem hitem
  obtain ⟨log, hread, hall⟩ := readItems_eq hmem fun item hitem => hproper.values item.2 (hmem item hitem)
  refine ⟨text, log, hwritten, ?_, hall⟩
  rw [readConfig, hblocksWritten, hparse]
  change Except.ok ((defaults settings.schema).readItems doc.items) = _
  have hassigned : (settings.schema.savedParams.map fun item =>
      (item.2.keyword, settings.get item.2.keyword)) =
      settings.schema.keywords.map fun keyword => (keyword, settings.get keyword) := by
    rw [Schema.keywords, ← hsaved, List.map_map, List.map_map]
    rfl
  rw [hitems, hblocks, hread, hassigned, setAll_defaults hproper.keywords]

theorem portable_of_mode {schema : Schema} (hschema : schema = Mode.baseSchema ∨ schema = Mode.listingSchema) :
    schema.Portable := by
  rcases hschema with rfl | rfl
  · exact ⟨by decide +kernel, by decide +kernel, by decide +kernel, by decide +kernel⟩
  · exact ⟨by decide +kernel, by decide +kernel, by decide +kernel, by decide +kernel⟩

/-- Settings with no number that is too long to be shown. -/
def Showable (settings : Settings) : Prop := ∀ entry ∈ settings.values, entry.2.isShowable = true

theorem Showable.get (hshowable : settings.Showable) (keyword : String) :
    (settings.get keyword).isShowable = true := by
  rw [Settings.get]
  cases hvalue : settings.get? keyword with
  | none => rfl
  | some value =>
    obtain ⟨front, rear, hvalues, -⟩ := List.lookup_eq_some_iff.mp hvalue
    exact hshowable (keyword, value) (hvalues ▸ List.mem_append_right front List.mem_cons_self)

theorem Showable.set (hshowable : settings.Showable) (keyword : String) {value : Value}
    (hvalue : value.isShowable = true) : (settings.set keyword value).Showable := by
  intro entry hentry
  obtain ⟨old, hold, rfl⟩ := List.mem_map.mp hentry
  split
  · exact hvalue
  · exact hshowable old hold

theorem Showable.readItem (hshowable : settings.Showable) (sectionName option text : String) :
    (settings.readItem sectionName option text).1.Showable := by
  unfold Settings.readItem
  dsimp only
  split
  · exact hshowable
  · split
    · rename_i hvalue
      exact hshowable.set option (Param.isShowable_of_ofText hvalue)
    · exact hshowable

theorem Showable.readItems (hshowable : settings.Showable) (items : List (List Char × List Char × List Char)) :
    (settings.readItems items).1.Showable := by
  induction items generalizing settings with
  | nil => exact hshowable
  | cons item items ih => exact ih (hshowable.readItem _ _ _)

/-- Reading a configuration leaves settings that can be written. -/
theorem Showable.readConfig (hshowable : settings.Showable) {text : List Char} {after : Settings}
    {log : List Log.Entry} (hread : settings.readConfig text = .ok (after, log)) : after.Showable := by
  unfold Settings.readConfig at hread
  cases hparse : Ini.parse text with
  | error fault =>
    rw [hparse] at hread
    cases hread
  | ok doc =>
    rw [hparse] at hread
    have hafter : settings.readItems doc.items = (after, log) := Except.ok.inj hread
    have hkept := hshowable.readItems doc.items
    rwa [hafter] at hkept

/-- Settings can be written if no number in them is too long. -/
theorem Showable.toConfig (hshowable : settings.Showable) : ∃ text, settings.toConfig = .ok text := by
  have htexts : ∀ layer ∈ settings.schema.savedLayers, ∀ param ∈ layer.params,
      settings.textOf param = .ok ((settings.textOf param).toOption.getD "") := by
    intro layer _ param _
    obtain ⟨text, hwritten⟩ := param.written_of_isShowable (hshowable.get param.keyword)
    rw [textOf, hwritten]
    rfl
  exact ⟨_, toConfig_of_texts htexts⟩

/-- Preferences of all modes, and of the mode for listings, survive being saved and loaded: settings in which each
has a value that it is meant to have can be written to a configuration, and are what the defaults become when that
configuration is read. Reading reports no error. -/
theorem readConfig_toConfig
    (hschema : settings.schema = Mode.baseSchema ∨ settings.schema = Mode.listingSchema)
    (hproper : settings.Proper) :
    ∃ text log, settings.toConfig = .ok text ∧
      (defaults settings.schema).readConfig text.toList = .ok (settings, log) ∧
      ∀ entry ∈ log, entry.severity ≠ .error := by
  obtain ⟨text, log, hwritten, hread, hdebug⟩ := readConfig_toConfig_of_portable (portable_of_mode hschema) hproper
  refine ⟨text, log, hwritten, hread, fun entry hentry => ?_⟩
  rw [hdebug entry hentry]
  decide

/-- Settings whose texts look like comments, delimiters, headers and quotes, with the least and the greatest
number that a double is sure to hold. -/
def awkward : Settings :=
  (defaults Mode.listingSchema).setAll
    [("comment_char", .text "\""), ("comment_column", .number (-9007199254740992)),
      ("source_in_comments", .flag true), ("extensions", .text " # ; = [x]: '"),
      ("filename_regex", .text "\"[DEFAULT]' "), ("tab_size", .number 9007199254740992),
      ("use_tabs", .flag true)]

theorem awkward_proper : awkward.Proper where
  keywords := by decide +kernel
  values := by
    refine List.forall_mem_cons.mpr ⟨.char (by decide +kernel) (by decide +kernel), ?_⟩
    refine List.forall_mem_cons.mpr ⟨.number (by decide +kernel), ?_⟩
    refine List.forall_mem_cons.mpr ⟨.flag true, ?_⟩
    refine List.forall_mem_cons.mpr ⟨.text (by decide +kernel), ?_⟩
    refine List.forall_mem_cons.mpr ⟨.text (by decide +kernel), ?_⟩
    refine List.forall_mem_cons.mpr ⟨.number (by decide +kernel), ?_⟩
    exact List.forall_mem_cons.mpr ⟨.flag true, nofun⟩

theorem readConfig_toConfig_awkward :
    awkward.schema = Mode.listingSchema ∧ awkward.Proper ∧
      ∃ text log, awkward.toConfig = .ok text ∧
        (defaults awkward.schema).readConfig text.toList = .ok (awkward, log) ∧
        ∀ entry ∈ log, entry.severity ≠ .error := by
  have hschema : awkward.schema = Mode.listingSchema := rfl
  exact ⟨hschema, awkward_proper, readConfig_toConfig (.inr hschema) awkward_proper⟩

end Settings

end ListingEditor.Preference
