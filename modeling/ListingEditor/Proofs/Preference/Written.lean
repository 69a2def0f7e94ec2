import ListingEditor.Preference.Config
import ListingEditor.Proofs.Mapping
import ListingEditor.Proofs.Preference.Schema

/-!
What a configuration is written with. For each keyword it is the first declaration that is saved. That is the
declaration that counts, unless that one is not saved and a more general one is.
-/

namespace ListingEditor.Preference

namespace Schema

/-- The declarations in layers, each with the name of its layer. -/
def declared (layers : List Layer) : List (String × Param) :=
  layers.flatMap fun layer => layer.params.map fun param => (layer.name, param)

/-- Whether a declaration is one of the preference with the given keyword. -/
def declares (keyword : String) (declaration : String × Param) : Bool := declaration.2.keyword == keyword

theorem declared_cons (layer : Layer) (layers : List Layer) :
    declared (layer :: layers) = layer.params.map (fun param => (layer.name, param)) ++ declared layers :=
  List.flatMap_cons

theorem mem_declared_iff {layers : List Layer} {declaration : String × Param} :
    declaration ∈ declared layers ↔
      ∃ layer ∈ layers, layer.name = declaration.1 ∧ declaration.2 ∈ layer.params := by
  constructor
  · intro hmem
    obtain ⟨layer, hlayer, hdeclared⟩ := List.mem_flatMap.mp hmem
    obtain ⟨param, hparam, rfl⟩ := List.mem_map.mp hdeclared
    exact ⟨layer, hlayer, rfl, hparam⟩
  · rintro ⟨layer, hlayer, hname, hparam⟩
    exact List.mem_flatMap.mpr ⟨layer, hlayer, List.mem_map.mpr ⟨declaration.2, hparam, by rw [hname]⟩⟩

theorem find?_map_declares (name keyword : String) (params : List Param) :
    (params.map fun param => (name, param)).find? (declares keyword) =
      (params.find? (·.keyword == keyword)).map fun param => (name, param) := List.find?_map

/-- The declaration that counts is the first one. -/
theorem find?_eq_map_declared (schema : Schema) (keyword : String) :
    schema.find? keyword = ((declared schema.layers).find? (declares keyword)).map (·.2) := by
  have hparams : schema.layers.flatMap (·.params) = (declared schema.layers).map (·.2) := by
    simp [declared, List.map_flatMap, Function.comp_def]
  rw [find?, hparams, List.find?_map]
  rfl

/-- If the declaration that counts is saved, it is the first one that is. -/
theorem find?_saved_of_find? {layers : List Layer} {keyword : String} {declaration : String × Param}
    (hcounts : (declared layers).find? (declares keyword) = some declaration)
    (hsaved : declaration.2.saved = true) :
    ((declared layers).find? fun declaration => declares keyword declaration && declaration.2.saved) =
      some declaration := by
  obtain ⟨hdeclares, front, rear, hsplit, hbefore⟩ := List.find?_eq_some_iff_append.mp hcounts
  refine List.find?_eq_some_iff_append.mpr ⟨by simp [hdeclares, hsaved], front, rear, hsplit, ?_⟩
  intro other hother
  have hdiffers := hbefore other hother
  rw [Bool.not_eq_true'] at hdiffers
  simp [hdiffers]

theorem not_mem_keywords {params : List Param} {keyword : String}
    (hnone : params.find? (·.keyword == keyword) = none) : keyword ∉ params.map (·.keyword) := by
  intro hmem
  obtain ⟨param, hparam, rfl⟩ := List.mem_map.mp hmem
  simpa using List.find?_eq_none.mp hnone param hparam

/-- Of the parameters with one keyword, the first that is saved is kept, unless one has been saved before. -/
theorem find?_saves (saved : List String) (params : List Param) (keyword : String) :
    (saves saved params).find? (·.keyword == keyword) =
      if keyword ∈ saved then none else params.find? fun param => param.keyword == keyword && param.saved := by
  fun_induction saves saved params with
  | case1 => simp
  | case2 saved param params hskip ih =>
    rw [ih]
    split
    · rfl
    · rename_i hnew
      refine (List.find?_cons_of_neg ?_).symm
      rw [Bool.and_eq_true, beq_iff_eq]
      rintro ⟨rfl, hsaved⟩
      simp [hsaved, hnew] at hskip
  | case3 saved param params hkeep ih =>
    simp only [Bool.or_eq_true, Bool.not_eq_true', List.contains_iff_mem, not_or, Bool.not_eq_false] at hkeep
    by_cases hsame : param.keyword = keyword
    · subst hsame
      rw [List.find?_cons_of_pos (by simp), if_neg hkeep.1, List.find?_cons_of_pos (by simp [hkeep.2])]
    · rw [List.find?_cons_of_neg (by simp [hsame]), List.find?_cons_of_neg (by simp [hsame]), ih]
      simp [Ne.symm hsame]

theorem declared_savedFrom_cons (saved : List String) (layer : Layer) (layers : List Layer) :
    declared (savedFrom saved (layer :: layers)) =
      (saves saved layer.params).map (fun param => (layer.name, param)) ++
        declared (savedFrom ((saves saved layer.params).map (·.keyword) ++ saved) layers) := by
  rw [savedFrom]
  split
  · rename_i hnone
    rw [List.isEmpty_iff.mp hnone]
    rfl
  · exact declared_cons _ _

/-- The same for the parameters of all layers. -/
theorem find?_savedFrom (saved : List String) (layers : List Layer) (keyword : String) :
    (declared (savedFrom saved layers)).find? (declares keyword) =
      if keyword ∈ saved then none
      else (declared layers).find? fun declaration => declares keyword declaration && declaration.2.saved := by
  induction layers generalizing saved with
  | nil => exact (ite_self _).symm
  | cons layer layers ih =>
    have hlayer : (layer.params.map fun param => (layer.name, param)).find?
        (fun declaration => declares keyword declaration && declaration.2.saved) =
        (layer.params.find? fun param => param.keyword == keyword && param.saved).map fun param =>
          (layer.name, param) := List.find?_map
    have hsaves := find?_saves saved layer.params keyword
    rw [declared_savedFrom_cons, declared_cons, List.find?_append, List.find?_append, find?_map_declares, hlayer, ih]
    by_cases hseen : keyword ∈ saved
    · rw [if_pos hseen] at hsaves
      rw [hsaves, if_pos hseen, if_pos (List.mem_append_right _ hseen)]
      rfl
    · rw [if_neg hseen] at hsaves
      rw [if_neg hseen, ← hsaves]
      cases hfirst : (saves saved layer.params).find? (·.keyword == keyword) with
      | some param => rfl
      | none =>
        rw [if_neg]
        rw [List.mem_append, not_or]
        exact ⟨not_mem_keywords hfirst, hseen⟩

theorem saves_keywords_nodup (saved : List String) (params : List Param) :
    ((saves saved params).map (·.keyword)).Nodup := by
  fun_induction saves saved params with
  | case1 => exact .nil
  | case2 saved param params hskip ih => exact ih
  | case3 saved param params hkeep ih =>
    refine List.nodup_cons.mpr ⟨not_mem_keywords ?_, ih⟩
    rw [find?_saves, if_pos List.mem_cons_self]

/-- No keyword is written twice. -/
theorem savedFrom_keywords_nodup (saved : List String) (layers : List Layer) :
    ((declared (savedFrom saved layers)).map (·.2.keyword)).Nodup := by
  induction layers generalizing saved with
  | nil => exact .nil
  | cons layer layers ih =>
    have hlayer : ((saves saved layer.params).map fun param => (layer.name, param)).map (·.2.keyword) =
        (saves saved layer.params).map (·.keyword) := List.map_map
    rw [declared_savedFrom_cons, List.map_append, hlayer]
    refine List.nodup_append.mpr ⟨saves_keywords_nodup saved layer.params, ih _, ?_⟩
    rintro keyword hfirst _ hlater rfl
    obtain ⟨declaration, hmem, rfl⟩ := List.mem_map.mp hlater
    have hnone := find?_savedFrom ((saves saved layer.params).map (·.keyword) ++ saved) layers declaration.2.keyword
    rw [if_pos (List.mem_append_left _ hfirst)] at hnone
    simpa [declares] using List.find?_eq_none.mp hnone declaration hmem

theorem params_ne_nil_of_mem_savedFrom {saved : List String} {layers : List Layer} {layer : Layer}
    (hmem : layer ∈ savedFrom saved layers) : layer.params ≠ [] := by
  induction layers generalizing saved with
  | nil => cases hmem
  | cons first layers ih =>
    rw [savedFrom] at hmem
    split at hmem
    · exact ih hmem
    · rename_i hsome
      obtain rfl | hlater := List.mem_cons.mp hmem
      · simpa using hsome
      · exact ih hlater

end Schema

namespace Settings

variable {settings : Settings}

/-- Settings are written if each of the values to be written has a text. -/
theorem toConfig_of_texts {text : Param → String}
    (htexts : ∀ layer ∈ settings.schema.savedLayers, ∀ param ∈ layer.params,
      settings.textOf param = .ok (text param)) :
    settings.toConfig = .ok ("\n".intercalate (settings.schema.savedLayers.flatMap fun layer =>
      ("[" ++ layer.name ++ "]") :: layer.params.map (fun param => param.keyword ++ " = " ++ text param) ++ [""])) := by
  have hlayer (layer : Layer) (hmem : layer ∈ settings.schema.savedLayers) : settings.layerLines layer =
      .ok (("[" ++ layer.name ++ "]") :: layer.params.map (fun param => param.keyword ++ " = " ++ text param) ++
        [""]) := by
    rw [layerLines, mapM_of_ok (g := fun param => param.keyword ++ " = " ++ text param)]
    · rfl
    · intro param hparam
      rw [optionLine, htexts layer hmem param hparam]
      rfl
  rw [toConfig, mapM_of_ok hlayer]
  rfl

/-- A value that has no text keeps its settings from being written. -/
theorem toConfig_of_error {layer : Layer} {param : Param} {e : ShowError} (hlayer : layer ∈ settings.schema.savedLayers)
    (hparam : param ∈ layer.params) (hfails : settings.textOf param = .error e) : settings.toConfig = .error e := by
  have hoption : settings.optionLine param = .error e := by
    rw [optionLine, hfails]
    rfl
  have hlines : settings.layerLines layer = .error e := by
    rw [layerLines, mapM_of_error hparam hoption]
    rfl
  rw [toConfig, mapM_of_error hlayer hlines]
  rfl

/-- What a configuration is written with: a section for each layer of which something is saved, with the text that each
declaration makes of the value. If there is a value of which no text can be made, nothing is written. No section is
empty and no keyword occurs twice. For a keyword the first declaration that is saved is written, in the section of its
layer, so a keyword is written if any of its declarations is saved. The declaration that counts is the one that is
written if it is saved. -/
theorem toConfig_firstSaved (settings : Settings) :
    let schema := settings.schema
    let written := Schema.declared schema.savedLayers
    (∀ text : Param → String, (∀ declaration ∈ written, settings.textOf declaration.2 = .ok (text declaration.2)) →
      settings.toConfig = .ok ("\n".intercalate (schema.savedLayers.flatMap fun layer => ("[" ++ layer.name ++ "]") ::
        layer.params.map (fun param => param.keyword ++ " = " ++ text param) ++ [""]))) ∧
    (∀ declaration ∈ written, ∀ e, settings.textOf declaration.2 = .error e → settings.toConfig = .error e) ∧
    (∀ layer ∈ schema.savedLayers, layer.params ≠ []) ∧ (written.map (·.2.keyword)).Nodup ∧
    (∀ keyword, written.find? (Schema.declares keyword) = (Schema.declared schema.layers).find? fun declaration =>
      Schema.declares keyword declaration && declaration.2.saved) ∧
    (∀ keyword, keyword ∈ written.map (·.2.keyword) ↔
      ∃ declaration ∈ Schema.declared schema.layers, declaration.2.keyword = keyword ∧ declaration.2.saved = true) ∧
    ∀ keyword param, schema.find? keyword = some param → param.saved = true →
      ∃ name, (Schema.declared schema.layers).find? (Schema.declares keyword) = some (name, param) ∧
        written.find? (Schema.declares keyword) = some (name, param) := by
  intro schema written
  have hfirst (keyword : String) : written.find? (Schema.declares keyword) =
      (Schema.declared schema.layers).find? fun declaration =>
        Schema.declares keyword declaration && declaration.2.saved :=
    (Schema.find?_savedFrom [] schema.layers keyword).trans (if_neg List.not_mem_nil)
  refine ⟨fun text htexts => ?_, fun declaration hmem e hfails => ?_, fun _ => Schema.params_ne_nil_of_mem_savedFrom,
    Schema.savedFrom_keywords_nodup [] schema.layers, hfirst, fun keyword => ?_, fun keyword param hfind hsaved => ?_⟩
  · exact toConfig_of_texts fun layer hlayer param hparam =>
      htexts (layer.name, param) (Schema.mem_declared_iff.mpr ⟨layer, hlayer, rfl, hparam⟩)
  · obtain ⟨layer, hlayer, -, hparam⟩ := Schema.mem_declared_iff.mp hmem
    exact toConfig_of_error hlayer hparam hfails
  · have hsome := congrArg (Option.isSome · = true) (hfirst keyword)
    simpa [Schema.declares] using hsome
  · rw [Schema.find?_eq_map_declared] at hfind
    obtain ⟨⟨name, param⟩, hcounts, rfl⟩ := Option.map_eq_some_iff.mp hfind
    exact ⟨name, hcounts, (hfirst keyword).trans (Schema.find?_saved_of_find? hcounts hsaved)⟩

/-- A flag that is not saved, declared again over a text that is. -/
def unsavedOverride : Settings :=
  defaults ⟨"Derived", [⟨"Derived", [(Param.declare .flag "x" (.flag true) "").withOptions
      [(Param.saveOption, .flag false)]]⟩,
    ⟨"Base", [.declare .text "x" (.text "a") ""]⟩]⟩

/-- A configuration can have a preference although the declaration that counts is not saved, with the section and the
text of a more general declaration. -/
theorem toConfig_unsaved :
    (unsavedOverride.schema.find? "x").map (·.saved) = some false ∧
      unsavedOverride.toConfig = .ok "[Base]\nx = True\n" := by
  decide +kernel

end Settings

end ListingEditor.Preference
