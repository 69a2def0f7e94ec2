import ListingEditor.Proofs.Matcher.Skipping
import ListingEditor.Proofs.Matcher.Specificity

/-!
What a search finds among modes whose tests all give an answer: the mode that is most certain. A mode that goes by the
keyword comes first, then one that goes by the modeline, and then what the name of the file and its header tell
together. Among modes that pass the same test the most specific ones come first.
-/

namespace ListingEditor

open Preference (Settings)
open VerifyError (isSkip isYes)

/-- A mode each of whose tests gives an answer. -/
structure Mode.Answers (mode : Mode) : Prop where
  filename : ∀ filename, ∃ answer, mode.verifyFilename (Settings.defaults mode.schema) filename = .ok answer
  magic : ∀ header, ∃ answer, mode.verifyMagic header = .ok answer
  keyword : ∀ keyword, ∃ answer, mode.verifyKeyword keyword = .ok answer

theorem VerifyError.courteous_of_ok {α : Type} {answer : Except VerifyError α} (hok : ∃ value, answer = .ok value) :
    VerifyError.Courteous answer := by
  obtain ⟨value, rfl⟩ := hok
  exact nofun

theorem Mode.Answers.courteous {mode : Mode} (hanswers : mode.Answers) : mode.Courteous where
  filename filename := VerifyError.courteous_of_ok (hanswers.filename filename)
  magic header := VerifyError.courteous_of_ok (hanswers.magic header)
  keyword keyword := VerifyError.courteous_of_ok (hanswers.keyword keyword)

namespace Matcher

/-- Whether a mode goes by a keyword. No mode goes by the empty one. -/
def goesBy (keyword : List Char) (mode : Mode) : Bool := !keyword.isEmpty && isYes (mode.verifyKeyword keyword)

/-- Whether a mode knows a file by its header. -/
def knows (header : List Char) (mode : Mode) : Bool := isYes (identifies header mode)

/-- Whether a mode has no opinion on a header. -/
def tolerates (header : List Char) (mode : Mode) : Bool := isYes (toleratesHeader header mode)

/-- The mode that a header and the modes which accept the name of the file lead to. A mode that does both, accepting
the name and knowing the header, comes before one that only knows the header, and that before one that accepts the name
and has no opinion on the header. -/
def bestByContent (modes : List Mode) (filename header : List Char) : Option Mode :=
  ((acceptors modes filename).find? (knows header)).or
    ((modes.find? (knows header)).or ((acceptors modes filename).find? (tolerates header)))

/-- The most certain of some modes for a file. -/
def best (modes : List Mode) (filename header keyword : List Char) : Option Mode :=
  (modes.find? (goesBy keyword)).or
    ((modes.find? (goesBy (modelineKeyword header))).or
      (if header.isEmpty then (acceptors modes filename).head? else bestByContent modes filename header))

theorem knows_iff {header : List Char} {mode : Mode} :
    knows header mode = true ↔ mode.verifyMagic header = .ok (some true) := by
  unfold knows identifies
  cases mode.verifyMagic header <;> simp [Except.map, isYes]

theorem tolerates_iff {header : List Char} {mode : Mode} :
    tolerates header mode = true ↔ mode.verifyMagic header = .ok none := by
  unfold tolerates toleratesHeader
  cases mode.verifyMagic header <;> simp [Except.map, isYes]

/-- If all modes answer, asking in turn finds the first one that says yes. -/
theorem first?_eq_find? {test : Mode → Except VerifyError Bool} {modes : List Mode}
    (hanswers : ∀ mode ∈ modes, ∃ answer, test mode = .ok answer) :
    first? test modes = .ok (modes.find? fun mode => isYes (test mode)) := by
  induction modes with
  | nil => rfl
  | cons mode modes ih =>
    obtain ⟨⟨answer, hfirst⟩, hrest⟩ := List.forall_mem_cons.mp hanswers
    cases answer with
    | true => simp [first?, hfirst, isYes]
    | false => simp [first?, hfirst, isYes, ih hrest]

section Answering

variable {modes : List Mode} (hanswers : ∀ mode ∈ modes, mode.Answers)
include hanswers

theorem claimant_eq_find? (keyword : List Char) :
    claimant modes keyword = .ok (modes.find? (goesBy keyword)) := by
  cases keyword with
  | nil =>
    have hnone : modes.find? (goesBy []) = none := List.find?_eq_none.mpr fun _ _ => Bool.false_ne_true
    rw [hnone]
    rfl
  | cons c keyword =>
    exact first?_eq_find? fun mode hmode => (hanswers mode hmode).keyword (c :: keyword)

theorem unclaimed_iff {keyword : List Char} :
    Unclaimed modes keyword ↔ modes.find? (goesBy keyword) = none := by
  rw [List.find?_eq_none]
  constructor
  · rintro (rfl | hall) mode hmode
    · exact Bool.false_ne_true
    · simp [goesBy, hall mode hmode, isYes]
  · intro hnone
    by_cases hkeyword : keyword = []
    · exact .inl hkeyword
    · refine .inr fun mode hmode => ?_
      obtain ⟨answer, hanswer⟩ := (hanswers mode hmode).keyword keyword
      have hno := hnone mode hmode
      simp only [goesBy, hanswer, isYes, Bool.and_eq_true, Bool.not_eq_true', List.isEmpty_eq_false_iff] at hno
      rw [hanswer, Bool.eq_false_iff.mpr fun hyes => hno ⟨hkeyword, hyes⟩]

theorem skipsName_eq_false (filename : List Char) {mode : Mode} (hmode : mode ∈ modes) :
    skipsName filename mode = false := by
  obtain ⟨answer, hanswer⟩ := (hanswers mode hmode).filename filename
  simp [skipsName, accepts, hanswer, isSkip]

theorem filter_skipsName (filename : List Char) : modes.filter (skipsName filename) = [] := by
  apply List.filter_eq_nil_iff.mpr
  intro mode hmode
  rw [skipsName_eq_false hanswers filename hmode]
  exact Bool.false_ne_true

theorem filter_isSkip_identifies (header : List Char) :
    (modes.filter fun mode => isSkip (identifies header mode)) = [] := by
  apply List.filter_eq_nil_iff.mpr
  intro mode hmode
  obtain ⟨answer, hanswer⟩ := (hanswers mode hmode).magic header
  rw [isSkip_identifies, hanswer]
  exact Bool.false_ne_true

theorem findByMagic_effect_of_answers (hdistinct : Mode.Distinct modes) {header : List Char} (hheader : header ≠ [])
    (fallback : Option Mode) :
    (findByMagic header fallback).effect ⟨modes, []⟩ =
      (.ok ((modes.find? (knows header)).or fallback), ⟨modes, []⟩) := by
  have hcourteous : ∀ mode ∈ modes, mode.Courteous := fun mode hmode => (hanswers mode hmode).courteous
  have heffect := findByMagic_effect (fun _ => false) hdistinct hcourteous hheader fallback
  simp only [List.filter_false, Bool.not_false, List.filter_true, List.nil_append, List.head?_filter,
    filter_isSkip_identifies hanswers] at heffect
  exact heffect

/-- With a header, modes that answer lead to the first one that knows it, or else to the first one to fall back on. -/
theorem chooseByName_eq_find? {header : List Char} (hheader : header ≠ []) :
    chooseByName header modes = .ok
      ((modes.find? (knows header)).elim (.fallback (modes.find? (tolerates header))) .certain) := by
  have hknows : first? (identifies header) modes = .ok (modes.find? (knows header)) := by
    refine first?_eq_find? fun mode hmode => ?_
    obtain ⟨answer, hanswer⟩ := (hanswers mode hmode).magic header
    exact ⟨_, by rw [identifies, hanswer]; rfl⟩
  have htolerates : first? (toleratesHeader header) modes = .ok (modes.find? (tolerates header)) := by
    refine first?_eq_find? fun mode hmode => ?_
    obtain ⟨answer, hanswer⟩ := (hanswers mode hmode).magic header
    exact ⟨_, by rw [toleratesHeader, hanswer]; rfl⟩
  cases hmodes : modes with
  | nil => rfl
  | cons mode rest =>
    simp only [chooseByName, List.isEmpty_iff, hheader, if_false]
    rw [← hmodes, hknows, htolerates]
    cases modes.find? (knows header) <;> rfl

end Answering

theorem chooseByName_nil (modes : List Mode) :
    chooseByName [] modes = .ok (modes.head?.elim (.fallback none) .certain) := by
  cases modes <;> rfl

/-- A search among modes that answer finds the most certain one and leaves no mode out. -/
theorem find_effect_of_answers {matcher : Matcher} (hdistinct : Mode.Distinct matcher.modes)
    (hanswers : ∀ mode ∈ matcher.modes, mode.Answers) (filename header keyword : List Char) :
    (find filename header keyword).effect matcher =
      (.ok (best matcher.modes filename header keyword), ⟨matcher.modes, []⟩) := by
  have hcourteous : ∀ mode ∈ matcher.modes, mode.Courteous := fun mode hmode => (hanswers mode hmode).courteous
  have hkeyword := byKeyword_effect matcher.modes keyword
  have hmodeline := byModeline_effect matcher.modes header
  rw [claimant_eq_find? hanswers] at hkeyword hmodeline
  rw [find, Step.effect_bind_change, Step.effect_bind_of_ok hkeyword, best]
  cases matcher.modes.find? (goesBy keyword) with
  | some mode => rfl
  | none =>
    dsimp only
    rw [Step.effect_bind_of_ok hmodeline]
    cases matcher.modes.find? (goesBy (modelineKeyword header)) with
    | some mode => rfl
    | none =>
      dsimp only
      have hname := byName_effect hdistinct hcourteous filename header
      rw [filter_skipsName hanswers] at hname
      have haccepting : ∀ mode ∈ acceptors matcher.modes filename, mode.Answers :=
        fun mode hmode => hanswers mode (List.mem_filter.mp hmode).1
      by_cases hheader : header = []
      · subst hheader
        rw [chooseByName_nil] at hname
        rw [Step.effect_bind_of_ok hname]
        cases (acceptors matcher.modes filename).head? <;> rfl
      · rw [chooseByName_eq_find? haccepting hheader] at hname
        rw [Step.effect_bind_of_ok hname, if_neg (by simpa using hheader), bestByContent]
        cases (acceptors matcher.modes filename).find? (knows header) with
        | some mode => rfl
        | none => exact findByMagic_effect_of_answers hanswers hdistinct hheader _

theorem best_of_unnamed {modes : List Mode} {filename header keyword : List Char}
    (hanswers : ∀ mode ∈ modes, mode.Answers) (hunnamed : Unnamed modes header keyword) (hheader : header ≠ []) :
    best modes filename header keyword = bestByContent modes filename header := by
  have hempty : header.isEmpty = false := by simpa using hheader
  rw [best, (unclaimed_iff hanswers).mp hunnamed.1, (unclaimed_iff hanswers).mp hunnamed.2, hempty]
  rfl

/-- A mode that a header leads to does not reject it. -/
theorem verifyMagic_of_bestByContent {modes : List Mode} {filename header : List Char} {mode : Mode}
    (hbest : bestByContent modes filename header = some mode) :
    mode.verifyMagic header = .ok (some true) ∨ mode.verifyMagic header = .ok none := by
  simp only [bestByContent, Option.or_eq_some_iff] at hbest
  obtain haccepting | ⟨-, hknown | ⟨-, hfallback⟩⟩ := hbest
  · exact .inl (knows_iff.mp (List.find?_some haccepting))
  · exact .inl (knows_iff.mp (List.find?_some hknown))
  · exact .inr (tolerates_iff.mp (List.find?_some hfallback))

/-- A header that some mode knows leads to a mode that knows it. -/
theorem exists_bestByContent {modes : List Mode} (filename : List Char) {header : List Char}
    (hknown : ∃ mode ∈ modes, knows header mode = true) :
    ∃ mode ∈ modes, bestByContent modes filename header = some mode ∧ knows header mode = true := by
  obtain ⟨mode, hmode⟩ := Option.isSome_iff_exists.mp (List.find?_isSome.mpr hknown)
  cases haccepting : (acceptors modes filename).find? (knows header) with
  | some first =>
    have hmem := (List.mem_filter.mp (List.mem_of_find?_eq_some haccepting)).1
    exact ⟨first, hmem, by rw [bestByContent, haccepting, Option.some_or], List.find?_some haccepting⟩
  | none =>
    refine ⟨mode, List.mem_of_find?_eq_some hmode, ?_, List.find?_some hmode⟩
    rw [bestByContent, haccepting, hmode, Option.none_or, Option.some_or]

/-- The tests that are put to all modes, and when one of them decides what is found. -/
inductive Decides (modes : List Mode) (filename header keyword : List Char) : (Mode → Bool) → Prop where
  | keyword (hpasses : ∃ mode ∈ modes, goesBy keyword mode = true) :
      Decides modes filename header keyword (goesBy keyword)
  | modeline (hunclaimed : Unclaimed modes keyword)
      (hpasses : ∃ mode ∈ modes, goesBy (modelineKeyword header) mode = true) :
      Decides modes filename header keyword (goesBy (modelineKeyword header))
  | magic (hunnamed : Unnamed modes header keyword) (hheader : header ≠ [])
      (hunidentified : Unidentified modes filename header) (hpasses : ∃ mode ∈ modes, knows header mode = true) :
      Decides modes filename header keyword (knows header)

theorem Decides.passes {modes : List Mode} {filename header keyword : List Char} {test : Mode → Bool}
    (hdecides : Decides modes filename header keyword test) : ∃ mode ∈ modes, test mode = true := by
  cases hdecides with
  | keyword hpasses => exact hpasses
  | modeline _ hpasses => exact hpasses
  | magic _ _ _ hpasses => exact hpasses

/-- The test that decides is passed by what is found, and by no mode before it. -/
theorem Decides.best_eq {modes : List Mode} {filename header keyword : List Char} {test : Mode → Bool}
    (hanswers : ∀ mode ∈ modes, mode.Answers) (hdecides : Decides modes filename header keyword test) :
    best modes filename header keyword = modes.find? test := by
  obtain ⟨mode, hmode⟩ := Option.isSome_iff_exists.mp (List.find?_isSome.mpr hdecides.passes)
  cases hdecides with
  | keyword _ => rw [best, hmode, Option.some_or]
  | modeline hunclaimed _ => rw [best, (unclaimed_iff hanswers).mp hunclaimed, hmode, Option.none_or, Option.some_or]
  | magic hunnamed hheader hunidentified _ =>
    have hnone : (acceptors modes filename).find? (knows header) = none := by
      apply List.find?_eq_none.mpr
      intro other hother
      rw [knows, hunidentified other hother]
      exact Bool.false_ne_true
    rw [best_of_unnamed hanswers hunnamed hheader, bestByContent, hnone, hmode, Option.none_or, Option.some_or]

/-- The first mode that passes a test is the most specific one. -/
theorem eq_false_of_derivesFrom {modes : List Mode} (hordered : Mode.Ordered modes) {test : Mode → Bool}
    {mode other : Mode} (hfound : modes.find? test = some mode) (hother : other ∈ modes)
    (hderives : other.DerivesFrom mode) : test other = false := by
  obtain ⟨-, front, rear, rfl, hfront⟩ := List.find?_eq_some_iff_append.mp hfound
  rcases List.mem_append.mp hother with hearlier | hlater
  · simpa using hfront other hearlier
  rcases List.mem_cons.mp hlater with rfl | hbehind
  · exact absurd rfl hderives.2
  · have hno := (List.pairwise_cons.mp (List.pairwise_append.mp hordered).2.1).1 other hbehind
    rw [hderives.1] at hno
    cases hno

/-- A search among modes whose tests give an answer, whatever has been searched for before. It finds the most certain
mode and leaves none out. Where no mode goes by a keyword, it finds no mode that rejects the header, and one that knows
the header if there is any. What passes a test that all modes are asked is found before the modes it derives from. -/
theorem find_most_certain {plugins : List Plugin} {matcher : Matcher}
    (hmodes : matcher.modes = (ofPlugins plugins).modes) (hhierarchy : Mode.Hierarchy (announced plugins))
    (hanswers : ∀ mode ∈ matcher.modes, mode.Answers) (filename header keyword : List Char) :
    let outcome := (find filename header keyword).run matcher
    outcome.result = .ok (best matcher.modes filename header keyword) ∧ outcome.state = ⟨matcher.modes, []⟩ ∧
      (Unnamed matcher.modes header keyword → header ≠ [] →
        (∀ mode, outcome.result = .ok (some mode) → mode.verifyMagic header ≠ .ok (some false)) ∧
        ((∃ mode ∈ matcher.modes, mode.verifyMagic header = .ok (some true)) →
          ∃ mode ∈ matcher.modes, outcome.result = .ok (some mode) ∧ mode.verifyMagic header = .ok (some true))) ∧
      ∀ test, Decides matcher.modes filename header keyword test →
        ∃ mode ∈ matcher.modes, outcome.result = .ok (some mode) ∧ test mode = true ∧
          ∀ other ∈ matcher.modes, other.DerivesFrom mode → test other = false := by
  intro outcome
  have hdistinct : Mode.Distinct matcher.modes := hmodes ▸ ofPlugins_distinct plugins
  have hordered : Mode.Ordered matcher.modes := hmodes ▸ ofPlugins_ordered hhierarchy
  have heffect := find_effect_of_answers hdistinct hanswers filename header keyword
  have hresult : outcome.result = .ok (best matcher.modes filename header keyword) := congrArg Prod.fst heffect
  refine ⟨hresult, congrArg Prod.snd heffect, ?_, ?_⟩
  · intro hunnamed hheader
    rw [best_of_unnamed hanswers hunnamed hheader] at hresult
    constructor
    · intro mode hmode hrejects
      have hbest := Except.ok.inj (hresult.symm.trans hmode)
      rcases verifyMagic_of_bestByContent hbest with hanswer | hanswer <;> rw [hanswer] at hrejects <;> cases hrejects
    · simp only [← knows_iff]
      intro hknown
      obtain ⟨mode, hmem, hbest, hknows⟩ := exists_bestByContent filename hknown
      exact ⟨mode, hmem, hresult.trans (congrArg _ hbest), hknows⟩
  · intro test hdecides
    obtain ⟨mode, hfound⟩ := Option.isSome_iff_exists.mp (List.find?_isSome.mpr hdecides.passes)
    rw [hdecides.best_eq hanswers, hfound] at hresult
    refine ⟨mode, List.mem_of_find?_eq_some hfound, hresult, List.find?_some hfound, fun other hother hderives => ?_⟩
    exact eq_false_of_derivesFrom hordered hfound hother hderives

/-- A mode for any text, which also accepts the names of listings. -/
def plainText : Mode :=
  { Mode.base.derive "Text" "Text" "text" [] with
    verifyFilename := fun _ filename => .ok (["txt".toList, "dis".toList].contains (Filename.extension filename)) }

/-- A mode for listings that tell which version they are of. -/
def versioned : Mode :=
  { Mode.listing.derive "Versioned" "Versioned" "versioned" [] with
    verifyMagic := fun header => .ok (some ("# pydisasm version".toList.isPrefixOf header)) }

/-- Plugins that announce modes which accept the same names. -/
def versionedPlugins : List Plugin :=
  [{ Plugin.inert "text" "text" with modes := [plainText] }, Plugin.listing,
    { Plugin.inert "versioned" "versioned" with modes := [versioned] }]

/-- A search from which a mode has been left out before. -/
def versionedSearch : Matcher := ⟨(ofPlugins versionedPlugins).modes, [Mode.listing]⟩

theorem versioned_hierarchy : Mode.Hierarchy (announced versionedPlugins) := by
  have hannounced : announced versionedPlugins = [plainText, Mode.listing, versioned] := rfl
  have hdistinct : Mode.Distinct [plainText, Mode.listing, versioned] := by
    unfold Mode.Distinct
    decide +kernel
  rw [hannounced]
  exact ⟨fun mode hmode other hother => hdistinct.eq_of_name_eq hmode hother, by decide +kernel, by decide +kernel⟩

theorem versionedSearch_answers : ∀ mode ∈ versionedSearch.modes, mode.Answers := by
  have hmodes : versionedSearch.modes = [plainText, versioned, Mode.listing] := rfl
  have hplain : plainText.Answers := ⟨fun _ => ⟨_, rfl⟩, fun _ => ⟨_, rfl⟩, fun _ => ⟨_, rfl⟩⟩
  have hversioned : versioned.Answers := ⟨fun _ => ⟨_, rfl⟩, fun _ => ⟨_, rfl⟩, fun _ => ⟨_, rfl⟩⟩
  have hlisting : Mode.listing.Answers := ⟨fun _ => ⟨_, rfl⟩, fun _ => ⟨_, rfl⟩, fun _ => ⟨_, rfl⟩⟩
  simp [hmodes, hplain, hversioned, hlisting]

theorem find_most_certain_versioned :
    Mode.Hierarchy (announced versionedPlugins) ∧ (∀ mode ∈ versionedSearch.modes, mode.Answers) ∧
      ((find "f.dis".toList "# pydisasm version 6".toList []).run versionedSearch).result = .ok (some versioned) ∧
      ((find "f.dis".toList "Disassembly of f".toList []).run versionedSearch).result = .ok (some Mode.listing) := by
  refine ⟨versioned_hierarchy, versionedSearch_answers, ?_, ?_⟩
  · exact (@find_most_certain _ versionedSearch rfl versioned_hierarchy versionedSearch_answers _ _ _).1
  · exact (@find_most_certain _ versionedSearch rfl versioned_hierarchy versionedSearch_answers _ _ _).1

end Matcher

end ListingEditor
