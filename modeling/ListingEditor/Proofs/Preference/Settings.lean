import ListingEditor.Proofs.Preference.Schema

/-!
Settings and what can be done to them. Whatever is assigned, settings of a schema have a value for each of its
preferences and for nothing else, so that they can be made anew from their own values.
-/

namespace ListingEditor.Preference.Settings

theorem lookup_replace (values : List (String × Value)) (keyword other : String) (value : Value) :
    (values.map fun entry => if entry.1 == keyword then (keyword, value) else entry).lookup other =
      (values.lookup other).map fun previous => if other = keyword then value else previous := by
  induction values with
  | nil => rfl
  | cons entry values ih =>
    obtain ⟨name, old⟩ := entry
    have hname : (if name == keyword then (keyword, value) else (name, old)) =
        (name, if name = keyword then value else old) := by
      by_cases hsame : name = keyword
      · simp [hsame]
      · simp [hsame]
    rw [List.map_cons, hname, List.lookup_cons, List.lookup_cons]
    cases hother : other == name with
    | true => rw [beq_iff_eq.mp hother, Option.map_some]
    | false => exact ih

theorem get?_set (settings : Settings) (keyword other : String) (value : Value) :
    (settings.set keyword value).get? other =
      (settings.get? other).map fun previous => if other = keyword then value else previous :=
  lookup_replace settings.values keyword other value

/-- Of the values that are assigned to a preference, the last one stays. -/
theorem get?_setAll (settings : Settings) (assignments : List (String × Value)) (keyword : String) :
    (settings.setAll assignments).get? keyword =
      (settings.get? keyword).map (assignments.reverse.lookup keyword).getD := by
  induction assignments generalizing settings with
  | nil => exact Option.map_id'.symm
  | cons assignment assignments ih =>
    change ((settings.set assignment.1 assignment.2).setAll assignments).get? keyword = _
    rw [ih, get?_set, Option.map_map, List.reverse_cons, List.lookup_append]
    congr 1
    funext previous
    rw [Function.comp_apply, Option.getD_or, List.lookup_cons]
    by_cases hsame : keyword = assignment.1
    · simp [hsame]
    · simp [hsame, beq_false_of_ne hsame]

theorem set_names (settings : Settings) (keyword : String) (value : Value) :
    (settings.set keyword value).values.map (·.1) = settings.values.map (·.1) := by
  rw [set, List.map_map]
  apply List.map_congr_left
  intro entry _
  simp only [Function.comp_apply]
  split
  · rename_i hname
    exact (beq_iff_eq.mp hname).symm
  · rfl

variable {settings : Settings}

theorem lookup_map (f : String → Value) (keywords : List String) (keyword : String) :
    (keywords.map fun keyword => (keyword, f keyword)).lookup keyword =
      if keyword ∈ keywords then some (f keyword) else none := by
  induction keywords with
  | nil => rfl
  | cons first keywords ih =>
    rw [List.map_cons, List.lookup_cons, ih]
    by_cases hsame : keyword = first
    · simp [hsame]
    · simp [hsame, beq_false_of_ne hsame]

theorem lookup_of_mem {values : List (String × Value)} (hdistinct : (values.map (·.1)).Nodup)
    {entry : String × Value} (hmem : entry ∈ values) : values.lookup entry.1 = some entry.2 := by
  obtain ⟨front, rear, rfl⟩ := List.append_of_mem hmem
  rw [List.map_append, List.map_cons, List.nodup_middle, List.nodup_cons] at hdistinct
  refine List.lookup_eq_some_iff.mpr ⟨front, rear, rfl, fun other hother => ?_⟩
  rw [bne_iff_ne]
  intro hsame
  have hagain : other.1 ∈ front.map (·.1) := List.mem_map_of_mem hother
  exact hdistinct.1 (List.mem_append_left _ (hsame ▸ hagain))

/-- Settings that have a value for each preference of their schema, and for nothing else, have just what they have for
each keyword. -/
theorem values_eq (hkeywords : settings.values.map (·.1) = settings.schema.keywords) :
    settings.values = settings.schema.keywords.map fun keyword => (keyword, settings.get keyword) := by
  have hdistinct : (settings.values.map (·.1)).Nodup := hkeywords ▸ settings.schema.keywords_nodup
  rw [← hkeywords, List.map_map]
  symm
  refine (List.map_congr_left fun entry hmem => ?_).trans settings.values.map_id
  rw [Function.comp_apply, get, get?, lookup_of_mem hdistinct hmem]
  rfl

/-- Settings of a schema: they have a value for each of its preferences, and for nothing else. -/
structure OfSchema (settings : Settings) (schema : Schema) : Prop where
  declared : settings.schema = schema
  keywords : settings.values.map (·.1) = schema.keywords

variable {schema : Schema} {arguments : List (String × Value)}

theorem defaults_ofSchema (schema : Schema) : (defaults schema).OfSchema schema where
  declared := rfl
  keywords := by
    rw [defaults, Schema.keywords, List.map_map]
    rfl

/-- Whatever values are assigned to whatever names, settings stay settings of their schema. -/
theorem OfSchema.setAll (hsettings : settings.OfSchema schema) (assignments : List (String × Value)) :
    (settings.setAll assignments).OfSchema schema := by
  induction assignments generalizing settings with
  | nil => exact hsettings
  | cons assignment assignments ih =>
    refine @ih (settings.set assignment.1 assignment.2) ⟨hsettings.declared, ?_⟩
    rw [set_names, hsettings.keywords]

/-- Settings of a schema are what they have for each keyword. -/
theorem OfSchema.ext {other : Settings} (hsettings : settings.OfSchema schema) (hother : other.OfSchema schema)
    (hvalues : ∀ keyword, settings.get? keyword = other.get? keyword) : settings = other := by
  obtain ⟨rfl, hkeywords⟩ := hsettings
  obtain ⟨hdeclared, hkeywords'⟩ := hother
  rw [← hdeclared] at hkeywords'
  have hlists : settings.values = other.values := by
    rw [values_eq hkeywords, values_eq hkeywords', hdeclared]
    simp only [get, hvalues]
  cases settings
  cases other
  exact congrArg₂ Settings.mk hdeclared.symm hlists

/-- Each preference starts with the default of the declaration that is found for it. -/
theorem get?_defaults (schema : Schema) (keyword : String) :
    (defaults schema).get? keyword = (schema.find? keyword).map (·.default) := by
  have hnames := (defaults_ofSchema schema).keywords
  cases hfind : schema.find? keyword with
  | some param =>
    obtain rfl := Schema.keyword_of_find? hfind
    have hentry : (param.keyword, param.default) ∈ (defaults schema).values :=
      List.mem_map_of_mem (Schema.mem_params_iff.mpr hfind)
    exact lookup_of_mem (hnames ▸ schema.keywords_nodup) hentry
  | none =>
    refine List.lookup_eq_none_iff.mpr fun entry hentry => ?_
    rw [bne_iff_ne]
    rintro rfl
    exact Schema.find?_eq_none_iff.mp hfind (hnames ▸ List.mem_map_of_mem hentry)

/-- Settings of a schema are what the defaults become when each preference is set to its value. -/
theorem setAll_defaults (hkeywords : settings.values.map (·.1) = settings.schema.keywords) :
    (defaults settings.schema).setAll
        (settings.schema.keywords.map fun keyword => (keyword, settings.get keyword)) = settings := by
  refine ((defaults_ofSchema settings.schema).setAll _).ext ⟨rfl, hkeywords⟩ fun keyword => ?_
  have hown : settings.get? keyword =
      if keyword ∈ settings.schema.keywords then some (settings.get keyword) else none := by
    rw [get?, values_eq hkeywords, lookup_map]
  rw [get?_setAll, get?_defaults, ← List.map_reverse, lookup_map, hown]
  by_cases hkeyword : keyword ∈ settings.schema.keywords
  · obtain ⟨param, hfind⟩ := Schema.mem_keywords_iff.mp hkeyword
    simp [hfind, hkeyword]
  · simp [Schema.find?_eq_none_iff.mpr hkeyword, hkeyword]

theorem find?_unknown_eq_none_iff :
    arguments.find? (fun argument => (schema.find? argument.1).isNone) = none ↔
      ∀ argument ∈ arguments, argument.1 ∈ schema.keywords := by
  simp only [List.find?_eq_none, Option.isNone_iff_eq_none, Schema.find?_eq_none_iff, not_not]

/-- Settings can be made with values of one's own just if all of them are for preferences. -/
theorem create_eq_ok_iff :
    create schema arguments = .ok settings ↔
      (∀ argument ∈ arguments, argument.1 ∈ schema.keywords) ∧ settings = (defaults schema).setAll arguments := by
  rw [create, ← find?_unknown_eq_none_iff]
  cases arguments.find? fun argument => (schema.find? argument.1).isNone with
  | some argument => simp
  | none => simp [eq_comm]

end ListingEditor.Preference.Settings
