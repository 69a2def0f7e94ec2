import ListingEditor.Preference.Schema
import Mathlib.Data.List.Nodup

/-!
The declarations of a schema that count: one for each keyword, the one that is found for it. If all preferences are
saved, these are the ones that are saved.
-/

namespace ListingEditor.Preference

namespace Schema

theorem firsts_sublist (seen : List String) (params : List Param) : (firsts seen params).Sublist params := by
  fun_induction firsts seen params with
  | case1 => exact .slnil
  | case2 seen param params hseen ih => exact ih.cons param
  | case3 seen param params hnew ih => exact ih.cons_cons param

theorem keyword_not_mem_of_mem_firsts {seen : List String} {params : List Param} {param : Param}
    (hmem : param ∈ firsts seen params) : param.keyword ∉ seen := by
  fun_induction firsts seen params with
  | case1 => cases hmem
  | case2 seen first params hseen ih => exact ih hmem
  | case3 seen first params hnew ih =>
    rcases List.mem_cons.mp hmem with rfl | hlater
    · simpa using hnew
    · exact fun hseen => ih hlater (List.mem_cons_of_mem _ hseen)

theorem firsts_keywords_nodup (seen : List String) (params : List Param) :
    ((firsts seen params).map (·.keyword)).Nodup := by
  fun_induction firsts seen params with
  | case1 => exact .nil
  | case2 seen param params hseen ih => exact ih
  | case3 seen param params hnew ih =>
    refine List.nodup_cons.mpr ⟨?_, ih⟩
    intro hmem
    obtain ⟨other, hother, hkeyword⟩ := List.mem_map.mp hmem
    exact keyword_not_mem_of_mem_firsts hother (hkeyword ▸ List.mem_cons_self)

theorem find?_eq_of_mem_firsts {seen : List String} {params : List Param} {param : Param}
    (hmem : param ∈ firsts seen params) : params.find? (·.keyword == param.keyword) = some param := by
  fun_induction firsts seen params with
  | case1 => cases hmem
  | case2 seen first params hseen ih =>
    have hother : first.keyword ≠ param.keyword := by
      intro hkeyword
      exact keyword_not_mem_of_mem_firsts hmem (hkeyword ▸ by simpa using hseen)
    rw [List.find?_cons_of_neg (by simpa using hother), ih hmem]
  | case3 seen first params hnew ih =>
    rcases List.mem_cons.mp hmem with rfl | hlater
    · rw [List.find?_cons_of_pos (by simp)]
    · have hother : first.keyword ≠ param.keyword := by
        intro hkeyword
        exact keyword_not_mem_of_mem_firsts hlater (hkeyword ▸ List.mem_cons_self)
      rw [List.find?_cons_of_neg (by simpa using hother), ih hlater]

theorem mem_firsts_of_find? {seen : List String} {params : List Param} {keyword : String} {param : Param}
    (hnew : keyword ∉ seen) (hfind : params.find? (·.keyword == keyword) = some param) :
    param ∈ firsts seen params := by
  fun_induction firsts seen params with
  | case1 => cases hfind
  | case2 seen first params hseen ih =>
    have hother : first.keyword ≠ keyword := by
      rintro rfl
      exact hnew (by simpa using hseen)
    rw [List.find?_cons_of_neg (by simpa using hother)] at hfind
    exact ih hnew hfind
  | case3 seen first params hunseen ih =>
    by_cases hsame : first.keyword = keyword
    · rw [List.find?_cons_of_pos (by simpa using hsame)] at hfind
      cases hfind
      exact List.mem_cons_self
    · rw [List.find?_cons_of_neg (by simpa using hsame)] at hfind
      refine List.mem_cons_of_mem _ (ih ?_ hfind)
      rw [List.mem_cons, not_or]
      exact ⟨Ne.symm hsame, hnew⟩

section Found

variable {schema : Schema} {keyword : String} {param : Param}

theorem keyword_of_find? (hfind : schema.find? keyword = some param) : param.keyword = keyword := by
  simpa using List.find?_some hfind

/-- A declaration that counts is the one that is found. -/
theorem find?_of_mem_params (hmem : param ∈ schema.params) : schema.find? param.keyword = some param :=
  find?_eq_of_mem_firsts hmem

theorem mem_params_iff : param ∈ schema.params ↔ schema.find? param.keyword = some param :=
  ⟨find?_of_mem_params, mem_firsts_of_find? List.not_mem_nil⟩

theorem mem_keywords_iff : keyword ∈ schema.keywords ↔ ∃ param, schema.find? keyword = some param := by
  constructor
  · intro hkeyword
    obtain ⟨param, hparam, rfl⟩ := List.mem_map.mp hkeyword
    exact ⟨param, find?_of_mem_params hparam⟩
  · rintro ⟨param, hfind⟩
    obtain rfl := keyword_of_find? hfind
    exact List.mem_map_of_mem (mem_params_iff.mpr hfind)

theorem find?_eq_none_iff : schema.find? keyword = none ↔ keyword ∉ schema.keywords := by
  rw [mem_keywords_iff, not_exists, Option.eq_none_iff_forall_ne_some]

theorem exists_layer_of_mem_params (hmem : param ∈ schema.params) :
    ∃ layer ∈ schema.layers, param ∈ layer.params :=
  List.mem_flatMap.mp ((firsts_sublist [] _).subset hmem)

end Found

theorem keywords_nodup (schema : Schema) : schema.keywords.Nodup := firsts_keywords_nodup [] _

/-- Only which keywords have been seen matters, not in which order. -/
theorem firsts_congr {seen seen' : List String} (hsame : ∀ keyword, keyword ∈ seen ↔ keyword ∈ seen')
    (params : List Param) : firsts seen params = firsts seen' params := by
  induction params generalizing seen seen' with
  | nil => rfl
  | cons param params ih =>
    have hcontains : seen.contains param.keyword = seen'.contains param.keyword := by
      rw [Bool.eq_iff_iff, List.contains_iff_mem, List.contains_iff_mem, hsame]
    have hnext (keyword : String) : keyword ∈ param.keyword :: seen ↔ keyword ∈ param.keyword :: seen' := by
      rw [List.mem_cons, List.mem_cons, hsame]
    rw [firsts, firsts, hcontains, ih hsame, ih hnext]

theorem firsts_append (seen : List String) (params more : List Param) :
    firsts seen (params ++ more) =
      firsts seen params ++ firsts ((firsts seen params).map (·.keyword) ++ seen) more := by
  induction params generalizing seen with
  | nil => rfl
  | cons param params ih =>
    rw [List.cons_append, firsts, firsts]
    split
    · exact ih seen
    · rw [ih, List.cons_append]
      congr 2
      exact firsts_congr (by simp [or_left_comm]) more

theorem saves_eq_firsts {saved : List String} {params : List Param}
    (hsaved : ∀ param ∈ params, param.saved = true) : saves saved params = firsts saved params := by
  induction params generalizing saved with
  | nil => rfl
  | cons param params ih =>
    obtain ⟨hparam, hrest⟩ := List.forall_mem_cons.mp hsaved
    simp only [saves, firsts, hparam, Bool.not_true, Bool.or_false, ih hrest]

/-- If all preferences are saved, the declarations that count are saved, each in its layer. -/
theorem flatMap_savedFrom {saved : List String} {layers : List Layer}
    (hsaved : ∀ layer ∈ layers, ∀ param ∈ layer.params, param.saved = true) :
    (savedFrom saved layers).flatMap (·.params) = firsts saved (layers.flatMap (·.params)) := by
  induction layers generalizing saved with
  | nil => rfl
  | cons layer layers ih =>
    obtain ⟨hlayer, hrest⟩ := List.forall_mem_cons.mp hsaved
    rw [savedFrom, List.flatMap_cons, firsts_append, ← ih hrest, saves_eq_firsts hlayer]
    split
    · rename_i hnone
      rw [List.isEmpty_iff.mp hnone]
      rfl
    · rfl

theorem flatMap_savedLayers {schema : Schema}
    (hsaved : ∀ layer ∈ schema.layers, ∀ param ∈ layer.params, param.saved = true) :
    schema.savedLayers.flatMap (·.params) = schema.params := flatMap_savedFrom hsaved

/-- The layers that are saved are some of those that there are. -/
theorem savedFrom_names_sublist (saved : List String) (layers : List Layer) :
    ((savedFrom saved layers).map (·.name)).Sublist (layers.map (·.name)) := by
  induction layers generalizing saved with
  | nil => exact .slnil
  | cons layer layers ih =>
    rw [savedFrom]
    split
    · exact (ih _).cons layer.name
    · exact (ih _).cons_cons layer.name

end Schema

end ListingEditor.Preference
