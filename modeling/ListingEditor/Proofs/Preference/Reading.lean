import ListingEditor.Preference.Config
import ListingEditor.Proofs.Ini.Names
import ListingEditor.Proofs.Preference.Settings
import ListingEditor.Proofs.Step

/-!
What reading a configuration does to settings. Each preference is left with the last value that the configuration has
for it, and the entries that name no preference or hold no value of it are reported, one line for each.
-/

namespace ListingEditor

namespace Text

theorem feed_not_mem_append {front rear : String} (hfront : '\n' ∉ front.toList) (hrear : '\n' ∉ rear.toList) :
    '\n' ∉ (front ++ rear).toList := by
  rw [String.toList_append, List.mem_append, not_or]
  exact ⟨hfront, hrear⟩

theorem quoteMark_ne_feed (text : List Char) : quoteMark text ≠ '\n' := by
  unfold quoteMark
  split
  · decide
  · decide

theorem feed_not_mem_hexDigits (width n : Nat) : '\n' ∉ hexDigits width n := by
  induction width generalizing n with
  | zero => exact List.not_mem_nil
  | succ width ih =>
    have hdigit : ∀ d : Fin 16, '\n' ≠ d.val.digitChar := by decide
    rw [hexDigits, List.mem_append, List.mem_singleton, not_or]
    exact ⟨ih (n / 16), hdigit ⟨n % 16, Nat.mod_lt n (by decide)⟩⟩

theorem feed_not_mem_codeEscape (c : Char) : '\n' ∉ codeEscape c := by
  unfold codeEscape
  split
  · simp [feed_not_mem_hexDigits]
  · split
    · simp [feed_not_mem_hexDigits]
    · simp [feed_not_mem_hexDigits]

theorem feed_not_mem_quoteChar {mark : Char} (hmark : mark ≠ '\n') (c : Char) : '\n' ∉ quoteChar mark c := by
  unfold quoteChar
  split
  · rename_i hquoted
    rcases hquoted with rfl | rfl
    · simp [hmark.symm]
    · decide
  · split
    · decide
    · rename_i hfeed
      split
      · decide
      · split
        · decide
        · split
          · simp [Ne.symm hfeed]
          · exact feed_not_mem_codeEscape c

/-- A text between quotes stands on one line. -/
theorem feed_not_mem_quote (text : List Char) : '\n' ∉ quote text := by
  have hmark := quoteMark_ne_feed text
  rw [quote, List.mem_append, List.mem_cons, List.mem_singleton, List.mem_flatMap]
  rintro ((hfirst | ⟨c, -, hc⟩) | hlast)
  · exact hmark hfirst.symm
  · exact feed_not_mem_quoteChar hmark c hc
  · exact hmark hlast.symm

end Text

namespace Preference

namespace Param

/-- Why a text can fail to be a value. -/
theorem error_cases {param : Param} {text : List Char} {e : ParamError} (hfails : param.ofText text = .error e) :
    (∃ text, e = .malformedNumber text) ∨ e = .infiniteNumber ∨ e = .undefinedNumber ∨
      ∃ text, e = .notOneCharacter param.keyword text := by
  unfold ofText at hfails
  dsimp only at hfails
  generalize Numeral.toInt (unquote text) = numeral at hfails
  generalize param.kind = kind at hfails
  cases kind with
  | free | flag | text => cases hfails
  | number =>
    rcases numeral with (malformed | _ | _) | n
    · exact .inl ⟨malformed, (Except.error.inj hfails).symm⟩
    · exact .inr (.inl (Except.error.inj hfails).symm)
    · exact .inr (.inr (.inl (Except.error.inj hfails).symm))
    · cases hfails
  | char =>
    dsimp only at hfails
    split at hfails
    · cases hfails
    · exact .inr (.inr (.inr ⟨_, (Except.error.inj hfails).symm⟩))

/-- The message about a text that is no value of a preference stands on one line, if the keyword does. -/
theorem message_oneLine {param : Param} {text : List Char} {e : ParamError} (hkeyword : '\n' ∉ param.keyword.toList)
    (hfails : param.ofText text = .error e) : '\n' ∉ e.message.toList := by
  have hquoted (text : List Char) : '\n' ∉ (String.ofList (Text.quote text)).toList := by
    rw [String.toList_ofList]
    exact Text.feed_not_mem_quote text
  obtain ⟨malformed, rfl⟩ | rfl | rfl | ⟨wrong, rfl⟩ := error_cases hfails
  · exact Text.feed_not_mem_append (by decide) (hquoted malformed)
  · decide
  · decide
  · exact Text.feed_not_mem_append (Text.feed_not_mem_append hkeyword (by decide)) (hquoted wrong)

end Param

namespace Schema

/-- The value that an entry of a configuration gives to a preference: what the declaration that counts makes of the
text, if the entry is named like the preference and its text can be converted. -/
def given? (schema : Schema) (keyword : String) (item : List Char × List Char × List Char) : Option Value :=
  if String.ofList item.2.1 = keyword then
    (schema.find? keyword).bind fun param => (param.ofText item.2.2).toOption
  else none

/-- The last value that the entries of a configuration give to a preference. -/
def lastGiven? (schema : Schema) (keyword : String) (items : List (List Char × List Char × List Char)) :
    Option Value := (items.filterMap (schema.given? keyword)).getLast?

/-- What is to be said about an entry that names no preference, or whose text cannot be converted. -/
def complaint? (schema : Schema) : List Char × List Char × List Char → Option String
  | (sectionName, option, text) =>
    match schema.find? (String.ofList option) with
    | none => some ("Unknown preference " ++ String.ofList option ++ " in section " ++ String.ofList sectionName)
    | some param =>
      match param.ofText text with
      | .ok _ => none
      | .error e =>
        some ("Error converting " ++ String.ofList option ++ " in section " ++ String.ofList sectionName ++ ": " ++
          e.message)

theorem given?_of_find? {schema : Schema} {option : List Char} {found : Option Param}
    (hfind : schema.find? (String.ofList option) = found) (keyword : String) (sectionName text : List Char) :
    schema.given? keyword (sectionName, option, text) =
      if String.ofList option = keyword then found.bind fun param => (param.ofText text).toOption else none := by
  rw [given?]
  split
  · rename_i hname
    rw [← hname, hfind]
  · rfl

theorem lastGiven?_singleton (schema : Schema) (keyword : String) (item : List Char × List Char × List Char) :
    schema.lastGiven? keyword [item] = schema.given? keyword item := by
  rw [lastGiven?, List.filterMap_cons]
  cases schema.given? keyword item with
  | none => rfl
  | some value => rfl

theorem lastGiven?_append (schema : Schema) (keyword : String)
    (items more : List (List Char × List Char × List Char)) :
    schema.lastGiven? keyword (items ++ more) =
      (schema.lastGiven? keyword more).or (schema.lastGiven? keyword items) := by
  rw [lastGiven?, List.filterMap_append, List.getLast?_append, lastGiven?, lastGiven?]

theorem complaint?_oneLine {schema : Schema} {item : List Char × List Char × List Char} {text : String}
    (hsection : '\n' ∉ item.1) (hoption : '\n' ∉ item.2.1) (hcomplaint : schema.complaint? item = some text) :
    '\n' ∉ text.toList := by
  obtain ⟨sectionName, option, given⟩ := item
  rw [← String.toList_ofList (l := sectionName)] at hsection
  rw [← String.toList_ofList (l := option)] at hoption
  -- both texts say where the entry stands
  have hplace (front : String) (hfront : '\n' ∉ front.toList) :
      '\n' ∉ (front ++ String.ofList option ++ " in section " ++ String.ofList sectionName).toList :=
    Text.feed_not_mem_append (Text.feed_not_mem_append (Text.feed_not_mem_append hfront hoption) (by decide)) hsection
  rw [complaint?] at hcomplaint
  split at hcomplaint
  · cases hcomplaint
    exact hplace _ (by decide)
  · rename_i param hfind
    split at hcomplaint
    · cases hcomplaint
    · rename_i e hfails
      cases hcomplaint
      have hkeyword : '\n' ∉ param.keyword.toList := by
        rw [keyword_of_find? hfind]
        exact hoption
      exact Text.feed_not_mem_append (Text.feed_not_mem_append (hplace _ (by decide)) (by decide))
        (Param.message_oneLine hkeyword hfails)

end Schema

namespace Settings

/-- What taking over entries of a configuration comes to: the preferences have the last values that they are given, and
what is not written for debugging is what there is to say about the entries. -/
structure Reads (settings : Settings) (items : List (List Char × List Char × List Char)) (after : Settings)
    (log : List Log.Entry) : Prop where
  schema : after.schema = settings.schema
  names : after.values.map (·.1) = settings.values.map (·.1)
  values : ∀ keyword, after.get? keyword =
    (settings.get? keyword).map (settings.schema.lastGiven? keyword items).getD
  errors : log.filter (·.severity != .debug) =
    (items.filterMap settings.schema.complaint?).map (.error readPlace settings.schema.name)

theorem reads_nil (settings : Settings) : settings.Reads [] settings [] where
  schema := rfl
  names := rfl
  values _ := Option.map_id'.symm
  errors := rfl

theorem Reads.append {settings middle after : Settings} {items more : List (List Char × List Char × List Char)}
    {log log' : List Log.Entry} (hfirst : settings.Reads items middle log) (hnext : middle.Reads more after log') :
    settings.Reads (items ++ more) after (log ++ log') where
  schema := hnext.schema.trans hfirst.schema
  names := hnext.names.trans hfirst.names
  values keyword := by
    rw [hnext.values, hfirst.values, hfirst.schema, Option.map_map, Schema.lastGiven?_append]
    congr 1
    funext previous
    exact Option.getD_or.symm
  errors := by
    rw [List.filter_append, hfirst.errors, hnext.errors, hfirst.schema, List.filterMap_append, List.map_append]

/-- One entry sets the preference that it names, or is complained about. -/
theorem readItem_reads (settings : Settings) (sectionName option text : List Char) :
    let (after, log) := settings.readItem (String.ofList sectionName) (String.ofList option) (String.ofList text)
    settings.Reads [(sectionName, option, text)] after log := by
  -- an entry that is complained about gives no value
  have hkept (complaint : String)
      (hnone : ∀ keyword, settings.schema.given? keyword (sectionName, option, text) = none)
      (hcomplaint : settings.schema.complaint? (sectionName, option, text) = some complaint) :
      settings.Reads [(sectionName, option, text)] settings [.error readPlace settings.schema.name complaint] := by
    refine ⟨rfl, rfl, fun keyword => ?_, ?_⟩
    · rw [Schema.lastGiven?_singleton, hnone]
      exact Option.map_id'.symm
    · rw [List.filterMap_cons, hcomplaint]
      rfl
  unfold readItem
  cases hfind : settings.schema.find? (String.ofList option) with
  | none =>
    refine hkept _ (fun keyword => ?_) (by rw [Schema.complaint?, hfind])
    rw [Schema.given?_of_find? hfind]
    exact ite_self _
  | some param =>
    dsimp only
    rw [String.toList_ofList]
    cases hvalue : param.ofText text with
    | error e =>
      refine hkept _ (fun keyword => ?_) (by simp only [Schema.complaint?, hfind, hvalue])
      rw [Schema.given?_of_find? hfind, Option.bind_some, hvalue]
      exact ite_self _
    | ok value =>
      refine ⟨rfl, set_names .., fun keyword => ?_, ?_⟩
      · rw [get?_set, Schema.lastGiven?_singleton, Schema.given?_of_find? hfind, Option.bind_some, hvalue]
        congr 1
        funext previous
        by_cases hname : String.ofList option = keyword
        · rw [if_pos hname, if_pos hname.symm]
          rfl
        · rw [if_neg hname, if_neg (Ne.symm hname)]
          rfl
      · simp only [List.filterMap_cons, Schema.complaint?, hfind, hvalue]
        rfl

theorem readItems_reads (settings : Settings) (items : List (List Char × List Char × List Char)) :
    let (after, log) := settings.readItems items
    settings.Reads items after log := by
  induction items generalizing settings with
  | nil => exact settings.reads_nil
  | cons item items ih =>
    obtain ⟨sectionName, option, text⟩ := item
    exact (settings.readItem_reads sectionName option text).append (ih _)

/-- One entry, taken over into settings that are kept as a state. -/
def takeOver : List Char × List Char × List Char → Step Ini.Fault Settings Unit
  | (sectionName, option, text) => fun settings =>
    let (after, log) := settings.readItem (String.ofList sectionName) (String.ofList option) (String.ofList text)
    ⟨.ok (), after, log⟩

/-- Reading a configuration into settings that are kept as a state: the text is taken apart, and then one entry after
the other is taken over. -/
def load (text : List Char) : Step Ini.Fault Settings Unit := do
  let doc ← Step.ask fun _ => Ini.parse text
  doc.items.forM takeOver

theorem run_forM_takeOver (settings : Settings) (items : List (List Char × List Char × List Char)) :
    (items.forM takeOver).run settings = ⟨.ok (), (settings.readItems items).1, (settings.readItems items).2⟩ := by
  induction items generalizing settings with
  | nil => rfl
  | cons item items ih =>
    change (takeOver item >>= fun _ => items.forM takeOver).run settings = _
    rw [Step.run_bind_of_ok rfl, ih]
    rfl

theorem run_load (settings : Settings) (text : List Char) :
    (load text).run settings =
      match settings.readConfig text with
      | .ok (after, log) => ⟨.ok (), after, log⟩
      | .error fault => ⟨.error fault, settings, []⟩ := by
  rw [readConfig, load]
  cases Ini.parse text with
  | error fault => exact Step.run_bind_of_error rfl
  | ok doc =>
    rw [Step.run_bind_of_ok rfl, run_forM_takeOver]
    rfl

/-- What reading a configuration does. If the text is no configuration, reading fails and changes nothing. Otherwise
each preference is left with the value of the last entry of its name that the declaration that counts can convert, or
with the value that it had if there is none, and nothing else is set. An entry that names no preference or cannot be
converted is reported as an error, in a line of its own and in the order of the entries; nothing else is. -/
theorem readConfig_lastGiven (settings : Settings) (text : List Char) :
    match Ini.parse text with
    | .error fault =>
      settings.readConfig text = .error fault ∧ (load text).run settings = ⟨.error fault, settings, []⟩
    | .ok doc =>
      ∃ after log, settings.readConfig text = .ok (after, log) ∧ (load text).run settings = ⟨.ok (), after, log⟩ ∧
        after.schema = settings.schema ∧ after.values.map (·.1) = settings.values.map (·.1) ∧
        (∀ keyword, after.get? keyword =
          (settings.get? keyword).map (settings.schema.lastGiven? keyword doc.items).getD) ∧
        log.filter (·.severity != .debug) =
          (doc.items.filterMap settings.schema.complaint?).map (.error readPlace settings.schema.name) ∧
        ∀ entry ∈ log, entry.severity ≠ .debug → '\n' ∉ entry.text.toList := by
  have hload := run_load settings text
  cases hparse : Ini.parse text with
  | error fault =>
    have hread : settings.readConfig text = .error fault := by
      rw [readConfig, hparse]
      rfl
    rw [hread] at hload
    exact ⟨hread, hload⟩
  | ok doc =>
    have hread : settings.readConfig text = .ok (settings.readItems doc.items) := by
      rw [readConfig, hparse]
      rfl
    rw [hread] at hload
    have hreads := settings.readItems_reads doc.items
    refine ⟨_, _, hread, hload, hreads.schema, hreads.names, hreads.values, hreads.errors, ?_⟩
    intro entry hentry hseverity
    have herror : entry ∈ (settings.readItems doc.items).2.filter (·.severity != .debug) :=
      List.mem_filter.mpr ⟨hentry, bne_iff_ne.mpr hseverity⟩
    rw [hreads.errors] at herror
    obtain ⟨complaint, hcomplaint, rfl⟩ := List.mem_map.mp herror
    obtain ⟨item, hitem, hsays⟩ := List.mem_filterMap.mp hcomplaint
    obtain ⟨hsection, hoption⟩ := Ini.items_oneLine hparse item hitem
    exact Schema.complaint?_oneLine hsection hoption hsays

/-- A number that is declared again over a text, and a character. -/
def redeclared : Settings :=
  defaults ⟨"Derived", [⟨"Derived", [.declare .number "x" .absent ""]⟩,
    ⟨"Base", [.declare .text "x" .absent "", .declare .char "c" (.text "#") ""]⟩]⟩

/-- Good and bad values of one preference, a name that is unknown, and a default for all sections. -/
def mixedText : List Char := "[DEFAULT]\nx = 1\n[a]\nx = 2\ny = 3\n[b]\nx = inf\n[d]\nc = ab".toList

theorem readConfig_lastGiven_mixed :
    ∃ after log, redeclared.readConfig mixedText = .ok (after, log) ∧ after.get? "x" = some (.number 1) ∧
      after.get? "c" = some (.text "#") ∧ (log.filter (·.severity != .debug)).map (·.text) =
        ["Unknown preference y in section a",
          "Error converting x in section b: cannot convert float infinity to integer",
          "Error converting c in section d: c must be a single character, not 'ab'"] := by
  have hlast := readConfig_lastGiven redeclared mixedText
  obtain ⟨doc, hparse, hitems⟩ : ∃ doc, Ini.parse mixedText = .ok doc ∧ doc.items =
      [("a".toList, "x".toList, "2".toList), ("a".toList, "y".toList, "3".toList),
        ("b".toList, "x".toList, "inf".toList), ("d".toList, "x".toList, "1".toList),
        ("d".toList, "c".toList, "ab".toList)] := ⟨_, rfl, by decide +kernel⟩
  rw [hparse] at hlast
  obtain ⟨after, log, hread, -, -, -, hvalues, herrors, -⟩ := hlast
  rw [hitems] at hvalues herrors
  refine ⟨after, log, hread, ?_, ?_, ?_⟩
  · rw [hvalues]
    decide +kernel
  · rw [hvalues]
    decide +kernel
  · rw [herrors]
    decide +kernel

end Settings

end Preference

end ListingEditor
