import ListingEditor.Proofs.Preference.Settings

/-!
Looking a preference up and enumerating the preferences. Both come to the same declarations, however a hierarchy
declares preferences again: for each keyword the first declaration in the most specific layer that has one. Settings
are made with the defaults of these declarations, except for the values that they are given.
-/

namespace ListingEditor.Preference

namespace Schema

/-- A declaration that counts: no layer that is more specific than its own declares the keyword, and its own layer does
not declare it earlier. -/
def Counts (schema : Schema) (param : Param) : Prop :=
  ∃ specific layer general front rear, schema.layers = specific ++ layer :: general ∧
    layer.params = front ++ param :: rear ∧
    (∀ other ∈ specific, ∀ declared ∈ other.params, declared.keyword ≠ param.keyword) ∧
    ∀ declared ∈ front, declared.keyword ≠ param.keyword

variable {schema : Schema} {keyword : String} {param : Param}

/-- What is found for a keyword is the declaration that counts. -/
theorem find?_eq_some_iff : schema.find? keyword = some param ↔ param.keyword = keyword ∧ schema.Counts param := by
  rw [find?, List.find?_flatMap, List.findSome?_eq_some_iff]
  simp only [List.find?_eq_some_iff_append, List.find?_eq_none, beq_iff_eq, Bool.not_eq_true', beq_eq_false_iff_ne]
  constructor
  · rintro ⟨specific, layer, general, hlayers, ⟨rfl, front, rear, hparams, hfront⟩, hspecific⟩
    exact ⟨rfl, specific, layer, general, front, rear, hlayers, hparams, hspecific, hfront⟩
  · rintro ⟨rfl, specific, layer, general, front, rear, hlayers, hparams, hspecific, hfront⟩
    exact ⟨specific, layer, general, hlayers, ⟨rfl, front, rear, hparams, hfront⟩, hspecific⟩

/-- The keywords are those that are declared somewhere. -/
theorem mem_keywords_iff_declared :
    keyword ∈ schema.keywords ↔ ∃ layer ∈ schema.layers, ∃ param ∈ layer.params, param.keyword = keyword := by
  rw [mem_keywords_iff, ← Option.isSome_iff_exists, find?, List.find?_isSome]
  simp only [List.mem_flatMap, beq_iff_eq]
  constructor
  · rintro ⟨param, ⟨layer, hlayer, hparam⟩, hkeyword⟩
    exact ⟨layer, hlayer, param, hparam, hkeyword⟩
  · rintro ⟨layer, hlayer, param, hparam, hkeyword⟩
    exact ⟨param, ⟨layer, hlayer, hparam⟩, hkeyword⟩

end Schema

namespace Settings

variable {schema : Schema} {settings : Settings} {arguments : List (String × Value)}

theorem find?_unknown_eq_some_iff {argument : String × Value} :
    arguments.find? (fun argument => (schema.find? argument.1).isNone) = some argument ↔
      argument.1 ∉ schema.keywords ∧ ∃ known rest, arguments = known ++ argument :: rest ∧
        ∀ argument ∈ known, argument.1 ∈ schema.keywords := by
  simp only [List.find?_eq_some_iff_append, Option.isNone_iff_eq_none, Schema.find?_eq_none_iff, Bool.not_eq_true',
    Option.isNone_eq_false_iff, Option.isSome_iff_exists, ← Schema.mem_keywords_iff]

/-- If settings cannot be made, it is because of the first name that is no preference. -/
theorem create_eq_error_iff {e : UnknownPreference} :
    create schema arguments = .error e ↔ e.schema = schema.name ∧ e.keyword ∉ schema.keywords ∧
      ∃ known value rest, arguments = known ++ (e.keyword, value) :: rest ∧
        ∀ argument ∈ known, argument.1 ∈ schema.keywords := by
  rw [create]
  constructor
  · intro hfails
    split at hfails
    · rename_i argument hunknown
      cases hfails
      obtain ⟨hname, known, rest, hsplit, hknown⟩ := find?_unknown_eq_some_iff.mp hunknown
      exact ⟨rfl, hname, known, argument.2, rest, hsplit, hknown⟩
    · cases hfails
  · rintro ⟨hschema, hname, known, value, rest, hsplit, hknown⟩
    rw [find?_unknown_eq_some_iff.mpr ⟨hname, known, rest, hsplit, hknown⟩, ← hschema]

theorem exists_create_eq_error_iff :
    (∃ e, create schema arguments = .error e) ↔ ∃ argument ∈ arguments, argument.1 ∉ schema.keywords := by
  constructor
  · rintro ⟨e, hfails⟩
    obtain ⟨-, hname, known, value, rest, rfl, -⟩ := create_eq_error_iff.mp hfails
    exact ⟨(e.keyword, value), List.mem_append_right _ List.mem_cons_self, hname⟩
  · rintro ⟨argument, hargument, hname⟩
    cases hcreate : create schema arguments with
    | error e => exact ⟨e, rfl⟩
    | ok settings => exact absurd ((create_eq_ok_iff.mp hcreate).1 argument hargument) hname

/-- Settings of a schema are the ones that are made with some values just if each preference has the last value that is
given for it, or else its default. -/
theorem OfSchema.eq_setAll_defaults_iff (hsettings : settings.OfSchema schema) :
    settings = (defaults schema).setAll arguments ↔ ∀ keyword, settings.get? keyword =
      (schema.find? keyword).map fun param => (arguments.reverse.lookup keyword).getD param.default := by
  have hmade (keyword : String) : ((defaults schema).setAll arguments).get? keyword =
      (schema.find? keyword).map fun param => (arguments.reverse.lookup keyword).getD param.default := by
    rw [get?_setAll, get?_defaults, Option.map_map]
    rfl
  constructor
  · rintro rfl
    exact hmade
  · intro hvalues
    refine hsettings.ext ((defaults_ofSchema schema).setAll arguments) fun keyword => ?_
    rw [hvalues, hmade]

/-- Looking up and enumerating agree. What is enumerated is the declarations that count, one for each keyword that is
declared and in the order of the layers, and what is found for a keyword is the one that is enumerated, if there is one.
New settings have their defaults. Settings cannot be made with values of one's own if and only if one is for a name that
is not enumerated, and the first such name is the one that is complained about. Otherwise they have, for the keywords
that are enumerated and for nothing else, the last value that is given, or else the default. -/
theorem enumeration_agrees_with_lookup (schema : Schema) :
    (schema.params.Sublist (schema.layers.flatMap (·.params)) ∧ schema.keywords.Nodup ∧
      ∀ keyword, keyword ∈ schema.keywords ↔
        ∃ layer ∈ schema.layers, ∃ param ∈ layer.params, param.keyword = keyword) ∧
    (∀ param, param ∈ schema.params ↔ schema.Counts param) ∧
    (∀ keyword param, schema.find? keyword = some param ↔ param ∈ schema.params ∧ param.keyword = keyword) ∧
    (∀ keyword, schema.find? keyword = none ↔ keyword ∉ schema.keywords) ∧
    (create schema [] = .ok (defaults schema) ∧
      ∀ keyword, (defaults schema).get? keyword = (schema.find? keyword).map (·.default)) ∧
    ∀ arguments,
      ((∃ e, create schema arguments = .error e) ↔ ∃ argument ∈ arguments, argument.1 ∉ schema.keywords) ∧
      (∀ e, create schema arguments = .error e ↔ e.schema = schema.name ∧ e.keyword ∉ schema.keywords ∧
        ∃ known value rest, arguments = known ++ (e.keyword, value) :: rest ∧
          ∀ argument ∈ known, argument.1 ∈ schema.keywords) ∧
      ∀ settings, create schema arguments = .ok settings ↔
        (∀ argument ∈ arguments, argument.1 ∈ schema.keywords) ∧ settings.OfSchema schema ∧
          ∀ keyword, settings.get? keyword =
            (schema.find? keyword).map fun param => (arguments.reverse.lookup keyword).getD param.default := by
  have hdeclared : schema.params.Sublist (schema.layers.flatMap (·.params)) := Schema.firsts_sublist [] _
  refine ⟨⟨hdeclared, schema.keywords_nodup, fun _ => Schema.mem_keywords_iff_declared⟩, fun param => ?_,
    fun keyword param => ?_, fun _ => Schema.find?_eq_none_iff, ⟨rfl, get?_defaults schema⟩, fun arguments => ?_⟩
  · rw [Schema.mem_params_iff, Schema.find?_eq_some_iff, eq_self_iff_true, true_and]
  · constructor
    · intro hfind
      obtain rfl := Schema.keyword_of_find? hfind
      exact ⟨Schema.mem_params_iff.mpr hfind, rfl⟩
    · rintro ⟨hparam, rfl⟩
      exact Schema.mem_params_iff.mp hparam
  · refine ⟨exists_create_eq_error_iff, fun _ => create_eq_error_iff, fun settings => ?_⟩
    rw [create_eq_ok_iff]
    constructor
    · rintro ⟨hknown, rfl⟩
      have hmade := (defaults_ofSchema schema).setAll arguments
      exact ⟨hknown, hmade, hmade.eq_setAll_defaults_iff.mp rfl⟩
    · rintro ⟨hknown, hsettings, hvalues⟩
      exact ⟨hknown, hsettings.eq_setAll_defaults_iff.mpr hvalues⟩

end Settings

end ListingEditor.Preference
