import ListingEditor.Proofs.Matcher.Stages

/-!
Modes that ask to be left out of a search. A search leaves a mode out when the test of a file name or the scan for
magic asks for it; what the other tests ask for ends the search.
-/

namespace ListingEditor

open Preference (Settings)
open VerifyError (isSkip isYes Courteous)

/-- A mode each of whose tests gives an answer or asks to leave the mode out. -/
structure Mode.Courteous (mode : Mode) : Prop where
  filename : ∀ filename, VerifyError.Courteous (mode.verifyFilename (Settings.defaults mode.schema) filename)
  magic : ∀ header, VerifyError.Courteous (mode.verifyMagic header)
  keyword : ∀ keyword, VerifyError.Courteous (mode.verifyKeyword keyword)

namespace Matcher

/-- Whether a mode accepts the name of a file. -/
def accepts (filename : List Char) (mode : Mode) : Except VerifyError Bool :=
  mode.verifyFilename (Settings.defaults mode.schema) filename

/-- The modes that accept the name of a file, if it has one. -/
def acceptors (modes : List Mode) (filename : List Char) : List Mode :=
  modes.filter fun mode => !filename.isEmpty && isYes (accepts filename mode)

/-- Whether a mode asks to be left out when it is asked for the name of a file, if there is one. -/
def skipsName (filename : List Char) (mode : Mode) : Bool :=
  !filename.isEmpty && isSkip (accepts filename mode)

/-- The keyword that a modeline gives, and none without a modeline. -/
def modelineKeyword (header : List Char) : List Char :=
  ((Modeline.ofHeader? header).bind (·.mode)).getD []

/-- No mode goes by a keyword. -/
def Unclaimed (modes : List Mode) (keyword : List Char) : Prop :=
  keyword = [] ∨ ∀ mode ∈ modes, mode.verifyKeyword keyword = .ok false

/-- No mode goes by the keyword of a search or by that of the modeline. -/
def Unnamed (modes : List Mode) (header keyword : List Char) : Prop :=
  Unclaimed modes keyword ∧ Unclaimed modes (modelineKeyword header)

/-- No mode that accepts the name of a file knows its header. -/
def Unidentified (modes : List Mode) (filename header : List Char) : Prop :=
  ∀ mode ∈ acceptors modes filename, identifies header mode = .ok false

/-- A mode whose test for keywords is called. -/
def AskedFor (modes : List Mode) (keyword : List Char) (mode : Mode) : Prop :=
  keyword ≠ [] ∧ Asked (·.verifyKeyword keyword) modes mode

/-- What a test asks for where nobody listens: the test for keywords, called for the keyword of the search or for
that of the modeline, and the magic test of a mode that accepts the name of the file. -/
inductive Escapes (modes : List Mode) (filename header keyword : List Char) (e : VerifyError) : Prop where
  | keyword {mode : Mode} (hasked : AskedFor modes keyword mode)
      (herror : mode.verifyKeyword keyword = .error e)
  | modeline {mode : Mode} (hunclaimed : Unclaimed modes keyword)
      (hasked : AskedFor modes (modelineKeyword header) mode)
      (herror : mode.verifyKeyword (modelineKeyword header) = .error e)
  | accepted {mode : Mode} (hunnamed : Unnamed modes header keyword) (hheader : header ≠ [])
      (hasked : Asked (identifies header) (acceptors modes filename) mode)
      (herror : mode.verifyMagic header = .error e)

/-- A mode that asks to be left out where that is listened to: when all modes are asked for the name of the file,
and when those that are left are asked for their magic. -/
inductive Caught (modes : List Mode) (filename header keyword : List Char) (mode : Mode) : Prop where
  | filename (hmem : mode ∈ modes) (hunnamed : Unnamed modes header keyword)
      (hskip : skipsName filename mode = true)
  | magic (hmem : mode ∈ modes) (hunnamed : Unnamed modes header keyword) (hheader : header ≠ [])
      (hunidentified : Unidentified modes filename header) (hleft : skipsName filename mode = false)
      (hskip : isSkip (mode.verifyMagic header) = true)

theorem isSkip_identifies (header : List Char) (mode : Mode) :
    isSkip (identifies header mode) = isSkip (mode.verifyMagic header) := by
  unfold identifies
  cases mode.verifyMagic header with
  | ok answer => rfl
  | error e => cases e <;> rfl

theorem identifies_eq_error_iff {header : List Char} {mode : Mode} {e : VerifyError} :
    identifies header mode = .error e ↔ mode.verifyMagic header = .error e := by
  unfold identifies
  cases mode.verifyMagic header <;> simp [Except.map]

end Matcher

theorem Mode.Courteous.identifies {mode : Mode} (hmode : mode.Courteous) (header : List Char) :
    VerifyError.Courteous (Matcher.identifies header mode) := by
  intro e he
  rw [Matcher.isSkip_identifies]
  exact hmode.magic header e (Matcher.identifies_eq_error_iff.mp he)

namespace Matcher

/-- The mode that goes by a keyword. -/
def claimant (modes : List Mode) (keyword : List Char) : Except VerifyError (Option Mode) :=
  if keyword.isEmpty then .ok none else first? (·.verifyKeyword keyword) modes

theorem claimant_eq (modes : List Mode) (keyword : List Char) :
    (claimant modes keyword = .ok none ∧ Unclaimed modes keyword) ∨
      (∃ mode, claimant modes keyword = .ok (some mode) ∧ ¬ Unclaimed modes keyword) ∨
      ∃ mode e, AskedFor modes keyword mode ∧ mode.verifyKeyword keyword = .error e ∧
        claimant modes keyword = .error e := by
  cases keyword with
  | nil => exact .inl ⟨rfl, .inl rfl⟩
  | cons c keyword =>
    obtain ⟨hnone, hall⟩ | ⟨mode, hasked, hyes, hsome⟩ | ⟨mode, e, hasked, he, herror⟩ :=
      first?_eq (·.verifyKeyword (c :: keyword)) modes
    · exact .inl ⟨hnone, .inr hall⟩
    · refine .inr (.inl ⟨mode, hsome, ?_⟩)
      rintro (hempty | hall)
      · cases hempty
      · have hno := hall mode hasked.mem
        rw [hyes] at hno
        cases hno
    · exact .inr (.inr ⟨mode, e, ⟨List.cons_ne_nil _ _, hasked⟩, he, herror⟩)

theorem claimant_of_unclaimed {modes : List Mode} {keyword : List Char}
    (hunclaimed : Unclaimed modes keyword) : claimant modes keyword = .ok none := by
  obtain ⟨hnone, -⟩ | ⟨mode, -, hclaimed⟩ | ⟨mode, e, ⟨hkeyword, hasked⟩, he, -⟩ := claimant_eq modes keyword
  · exact hnone
  · exact absurd hunclaimed hclaimed
  · have hno := (hunclaimed.resolve_left hkeyword) mode hasked.mem
    rw [he] at hno
    cases hno

theorem claimant_of_error {modes : List Mode} {keyword : List Char} {mode : Mode} {e : VerifyError}
    (hasked : AskedFor modes keyword mode) (herror : mode.verifyKeyword keyword = .error e) :
    claimant modes keyword = .error e := by
  rw [claimant, if_neg (by simpa using hasked.1)]
  exact first?_eq_error_of_asked hasked.2 herror

theorem active_start (modes : List Mode) : (Matcher.mk modes []).active = modes := by simp [active]

theorem findByKeyword_effect (modes : List Mode) (keyword : List Char) :
    (findByKeyword keyword).effect ⟨modes, []⟩ =
      (first? (·.verifyKeyword keyword) modes, ⟨modes, []⟩) := by
  change (first? _ (Matcher.mk modes []).active, Matcher.mk modes []) = _
  rw [active_start]

theorem byKeyword_effect (modes : List Mode) (keyword : List Char) :
    (byKeyword keyword).effect ⟨modes, []⟩ = (claimant modes keyword, ⟨modes, []⟩) := by
  unfold byKeyword claimant
  split
  · rfl
  · exact (Step.effect_bind_report_return ..).trans (findByKeyword_effect modes keyword)

/-- A modeline that counts names a mode. -/
theorem mode_of_firstWithMode? {lines : List (List Char)} {modeline : Modeline} {name : List Char}
    (hfirst : Modeline.firstWithMode? lines = some modeline) (hname : modeline.mode = some name) :
    name ≠ [] := by
  induction lines with
  | nil => cases hfirst
  | cons line lines ih =>
    unfold Modeline.firstWithMode? at hfirst
    split at hfirst
    · rename_i hmode
      obtain rfl := Option.some.inj hfirst
      simpa [hname] using hmode
    · exact ih hfirst

theorem findByModeline_effect (modes : List Mode) (header : List Char) :
    (findByModeline header).effect ⟨modes, []⟩ =
      (claimant modes (modelineKeyword header), ⟨modes, []⟩) := by
  rw [findByModeline, say, Step.effect_bind_report, modelineKeyword]
  cases hname : (Modeline.ofHeader? header).bind (·.mode) with
  | none => rfl
  | some name =>
    obtain ⟨modeline, hmodeline, hmode⟩ := Option.bind_eq_some_iff.mp hname
    have hnonempty := mode_of_firstWithMode? hmodeline hmode
    rw [Option.getD_some, claimant, if_neg (by simpa using hnonempty)]
    exact findByKeyword_effect modes name

theorem byModeline_effect (modes : List Mode) (header : List Char) :
    (byModeline header).effect ⟨modes, []⟩ =
      (claimant modes (modelineKeyword header), ⟨modes, []⟩) := by
  cases header with
  | nil => rfl
  | cons c header =>
    exact (Step.effect_bind_report_return ..).trans (findByModeline_effect modes (c :: header))

/-- What the modes that accept the name of a file come to. -/
def chooseByName (header : List Char) (accepting : List Mode) : Except VerifyError ByName :=
  match accepting with
  | [] => .ok (.fallback none)
  | mode :: _ =>
    if header.isEmpty then .ok (.certain mode)
    else
      match first? (identifies header) accepting with
      | .ok (some known) => .ok (.certain known)
      | .ok none => (first? (toleratesHeader header) accepting).map .fallback
      | .error e => .error e

theorem byName_effect {modes : List Mode} (hdistinct : Mode.Distinct modes)
    (hcourteous : ∀ mode ∈ modes, mode.Courteous) (filename header : List Char) :
    (byName filename header).effect ⟨modes, []⟩ =
      (chooseByName header (acceptors modes filename), ⟨modes, modes.filter (skipsName filename)⟩) := by
  cases filename with
  | nil =>
    have hnone : acceptors modes [] = [] ∧ modes.filter (skipsName []) = [] := by
      simp [acceptors, skipsName]
    rw [hnone.1, hnone.2]
    rfl
  | cons c name =>
    have hscan : (scanFilename (c :: name)).effect ⟨modes, []⟩ =
        (.ok (acceptors modes (c :: name)), ⟨modes, modes.filter (skipsName (c :: name))⟩) := by
      rw [scanFilename, Step.effect_bind_look, active_start]
      exact scan_effect (fun mode hmode => (hcourteous mode hmode).filename _) hdistinct (by simp)
    change (findByName (c :: name) header).effect _ = _
    rw [findByName, Step.effect_bind_of_ok hscan, say, Step.effect_bind_report]
    cases acceptors modes (c :: name) with
    | nil => rfl
    | cons mode accepting =>
      simp only [chooseByName]
      split
      · rfl
      · cases first? (identifies header) (mode :: accepting) with
        | error e => rfl
        | ok known =>
          cases known with
          | some known => rfl
          | none => cases first? (toleratesHeader header) (mode :: accepting) <;> rfl

/-- The name of a file leads to a mode that accepts it, or to a failure of one that is asked for its magic. -/
theorem chooseByName_eq (header : List Char) (accepting : List Mode) :
    (∃ mode ∈ accepting, chooseByName header accepting = .ok (.certain mode) ∧
        (header ≠ [] → identifies header mode = .ok true)) ∨
      (∃ fallback, chooseByName header accepting = .ok (.fallback fallback) ∧
        (∀ mode, fallback = some mode → mode ∈ accepting ∧ mode.verifyMagic header = .ok none) ∧
        (header ≠ [] → ∀ mode ∈ accepting, identifies header mode = .ok false)) ∨
      ∃ mode e, header ≠ [] ∧ Asked (identifies header) accepting mode ∧
        mode.verifyMagic header = .error e ∧ chooseByName header accepting = .error e := by
  cases haccepting : accepting with
  | nil => exact .inr (.inl ⟨none, rfl, by simp, by simp⟩)
  | cons first rest =>
    by_cases hheader : header = []
    · subst hheader
      exact .inl ⟨first, by simp, rfl, by simp⟩
    simp only [chooseByName, List.isEmpty_iff, hheader, if_false]
    rw [← haccepting]
    obtain ⟨hnone, hall⟩ | ⟨mode, hasked, hyes, hsome⟩ | ⟨mode, e, hasked, he, herror⟩ :=
      first?_eq (identifies header) accepting
    · rw [hnone]
      refine .inr (.inl ?_)
      obtain ⟨hnone', hall'⟩ | ⟨mode, hasked, hyes, hsome⟩ | ⟨mode, e, hasked, he, herror⟩ :=
        first?_eq (toleratesHeader header) accepting
      · rw [hnone']
        exact ⟨none, rfl, by simp, fun _ => hall⟩
      · rw [hsome]
        refine ⟨some mode, rfl, ?_, fun _ => hall⟩
        rintro other ⟨⟩
        refine ⟨hasked.mem, ?_⟩
        unfold toleratesHeader at hyes
        cases hmagic : mode.verifyMagic header with
        | error e => simp [hmagic, Except.map] at hyes
        | ok answer =>
          rw [hmagic] at hyes
          simpa [Except.map] using hyes
      · -- a mode that has answered in the first pass answers in the second
        have hanswer := hall mode hasked.mem
        unfold toleratesHeader at he
        unfold identifies at hanswer
        cases hmagic : mode.verifyMagic header with
        | error e => simp [hmagic, Except.map] at hanswer
        | ok answer => simp [hmagic, Except.map] at he
    · rw [hsome]
      exact .inl ⟨mode, hasked.mem, rfl, fun _ => hyes⟩
    · rw [herror]
      exact .inr (.inr ⟨mode, e, hheader, hasked, identifies_eq_error_iff.mp he, rfl⟩)

theorem chooseByName_of_error {header : List Char} {accepting : List Mode} {mode : Mode} {e : VerifyError}
    (hheader : header ≠ []) (hasked : Asked (identifies header) accepting mode)
    (herror : mode.verifyMagic header = .error e) : chooseByName header accepting = .error e := by
  have hfirst := first?_eq_error_of_asked hasked (identifies_eq_error_iff.mpr herror)
  cases accepting with
  | nil => simpa using hasked.mem
  | cons first rest => simp only [chooseByName, List.isEmpty_iff, hheader, if_false, hfirst]

/-- The modes that are left when some have been left out. -/
theorem active_eq {modes : List Mode} (hdistinct : Mode.Distinct modes) (skips : Mode → Bool) :
    (Matcher.mk modes (modes.filter skips)).active = modes.filter fun mode => !skips mode := by
  apply List.filter_congr
  intro mode hmode
  congr 1
  rw [Bool.eq_iff_iff, Mode.contains_iff]
  constructor
  · rintro ⟨other, hother, hname⟩
    obtain ⟨hmem, hskips⟩ := List.mem_filter.mp hother
    rwa [hdistinct.eq_of_name_eq hmode hmem hname]
  · intro hskips
    exact ⟨mode, List.mem_filter.mpr ⟨hmode, hskips⟩, rfl⟩

theorem scanMagic_effect {modes : List Mode} (skips : Mode → Bool) (header : List Char)
    (hdistinct : Mode.Distinct modes) (hcourteous : ∀ mode ∈ modes, mode.Courteous) :
    (scanMagic header).effect ⟨modes, modes.filter skips⟩ =
      (.ok ((modes.filter fun mode => !skips mode).filter fun mode => isYes (identifies header mode)),
        ⟨modes, modes.filter skips ++
          (modes.filter fun mode => !skips mode).filter fun mode => isSkip (identifies header mode)⟩) := by
  rw [scanMagic, Step.effect_bind_look, active_eq hdistinct]
  apply scan_effect
  · intro mode hmode
    exact (hcourteous mode (List.mem_filter.mp hmode).1).identifies header
  · exact hdistinct.filter _
  · intro mode hmode other hother hname
    obtain ⟨hmem, hleft⟩ := List.mem_filter.mp hmode
    obtain ⟨hmem', hskips⟩ := List.mem_filter.mp hother
    obtain rfl := hdistinct.eq_of_name_eq hmem hmem' hname
    simp [hskips] at hleft

theorem findByMagic_effect {modes : List Mode} (skips : Mode → Bool) {header : List Char}
    (hdistinct : Mode.Distinct modes) (hcourteous : ∀ mode ∈ modes, mode.Courteous)
    (hheader : header ≠ []) (fallback : Option Mode) :
    (findByMagic header fallback).effect ⟨modes, modes.filter skips⟩ =
      (.ok (((modes.filter fun mode => !skips mode).filter fun mode =>
          isYes (identifies header mode)).head?.or fallback),
        ⟨modes, modes.filter skips ++
          (modes.filter fun mode => !skips mode).filter fun mode => isSkip (identifies header mode)⟩) := by
  rw [findByMagic, if_neg (by simpa using hheader),
    Step.effect_bind_of_ok (scanMagic_effect skips header hdistinct hcourteous)]
  rfl

/-- A search that finds out nothing by a keyword goes on with the name of the file. -/
theorem find_effect_of_unnamed {matcher : Matcher} {filename header keyword : List Char}
    (hunnamed : Unnamed matcher.modes header keyword) :
    (find filename header keyword).effect matcher =
      (do
        match ← byName filename header with
        | .certain mode => return some mode
        | .fallback mode => findByMagic header mode).effect ⟨matcher.modes, []⟩ := by
  have hkeyword := byKeyword_effect matcher.modes keyword
  have hmodeline := byModeline_effect matcher.modes header
  rw [claimant_of_unclaimed hunnamed.1] at hkeyword
  rw [claimant_of_unclaimed hunnamed.2] at hmodeline
  rw [find, Step.effect_bind_change, Step.effect_bind_of_ok hkeyword]
  exact Step.effect_bind_of_ok hmodeline

theorem find_effect_of_escapes {matcher : Matcher} {filename header keyword : List Char} {e : VerifyError}
    (hdistinct : Mode.Distinct matcher.modes) (hcourteous : ∀ mode ∈ matcher.modes, mode.Courteous)
    (hescapes : Escapes matcher.modes filename header keyword e) :
    ((find filename header keyword).effect matcher).1 = .error e := by
  have hkeyword := byKeyword_effect matcher.modes keyword
  have hmodeline := byModeline_effect matcher.modes header
  cases hescapes with
  | keyword hasked herror =>
    rw [claimant_of_error hasked herror] at hkeyword
    rw [find, Step.effect_bind_change, Step.effect_bind_of_error hkeyword]
  | modeline hunclaimed hasked herror =>
    rw [claimant_of_unclaimed hunclaimed] at hkeyword
    rw [claimant_of_error hasked herror] at hmodeline
    rw [find, Step.effect_bind_change, Step.effect_bind_of_ok hkeyword]
    exact congrArg Prod.fst (Step.effect_bind_of_error hmodeline)
  | accepted hunnamed hheader hasked herror =>
    have hname := byName_effect hdistinct hcourteous filename header
    rw [chooseByName_of_error hheader hasked herror] at hname
    rw [find_effect_of_unnamed hunnamed, Step.effect_bind_of_error hname]

theorem Caught.unnamed {modes : List Mode} {filename header keyword : List Char} {mode : Mode}
    (hcaught : Caught modes filename header keyword mode) : Unnamed modes header keyword := by
  cases hcaught with
  | filename _ hunnamed _ => exact hunnamed
  | magic _ hunnamed _ _ _ _ => exact hunnamed

theorem skipsName_of_mem_acceptors {modes : List Mode} {filename : List Char} {mode : Mode}
    (hmem : mode ∈ acceptors modes filename) : skipsName filename mode = false := by
  simp only [acceptors, List.mem_filter, Bool.and_eq_true] at hmem
  have hyes := hmem.2.2
  cases haccepts : accepts filename mode with
  | error e => simp [haccepts, isYes] at hyes
  | ok answer => simp [skipsName, haccepts, isSkip]

/-- A search that finds a mode by the name of the file. -/
theorem caught_iff_of_identified {modes : List Mode} {filename header keyword : List Char}
    (hunnamed : Unnamed modes header keyword)
    (hidentified : header ≠ [] → ¬ Unidentified modes filename header) {mode : Mode} :
    Caught modes filename header keyword mode ↔ mode ∈ modes.filter (skipsName filename) := by
  rw [List.mem_filter]
  constructor
  · intro hcaught
    cases hcaught with
    | filename hmem _ hskip => exact ⟨hmem, hskip⟩
    | magic _ _ hheader hunidentified _ _ => exact absurd hunidentified (hidentified hheader)
  · rintro ⟨hmem, hskip⟩
    exact .filename hmem hunnamed hskip

theorem caught_iff_of_unidentified {modes : List Mode} {filename header keyword : List Char}
    (hunnamed : Unnamed modes header keyword) (hheader : header ≠ [])
    (hunidentified : Unidentified modes filename header) {mode : Mode} :
    Caught modes filename header keyword mode ↔
      mode ∈ modes.filter (skipsName filename) ++
        (modes.filter fun mode => !skipsName filename mode).filter fun mode =>
          isSkip (identifies header mode) := by
  simp only [List.mem_append, List.mem_filter, isSkip_identifies, Bool.not_eq_true']
  constructor
  · intro hcaught
    cases hcaught with
    | filename hmem _ hskip => exact .inl ⟨hmem, hskip⟩
    | magic hmem _ _ _ hleft hskip => exact .inr ⟨⟨hmem, hleft⟩, hskip⟩
  · rintro (⟨hmem, hskip⟩ | ⟨⟨hmem, hleft⟩, hskip⟩)
    · exact .filename hmem hunnamed hskip
    · exact .magic hmem hunnamed hheader hunidentified hleft hskip

/-- The modes that ask to be left out have been left out, and none of them has been found. -/
structure LeavesOut (modes : List Mode) (filename header keyword : List Char)
    (effect : Except VerifyError (Option Mode) × Matcher) : Prop where
  returns : ∃ found, effect.1 = .ok found
  skipped : ∀ mode, mode ∈ effect.2.skipped ↔ Caught modes filename header keyword mode
  found : ∀ mode, Caught modes filename header keyword mode → effect.1 ≠ .ok (some mode)

/-- A search in which a mode goes by a keyword asks no other tests. -/
theorem leavesOut_of_named {modes : List Mode} {filename header keyword : List Char}
    (hnamed : ¬ Unnamed modes header keyword) (found : Option Mode) :
    LeavesOut modes filename header keyword (.ok found, ⟨modes, []⟩) where
  returns := ⟨found, rfl⟩
  skipped _ := ⟨nofun, fun hcaught => absurd hcaught.unnamed hnamed⟩
  found _ hcaught := absurd hcaught.unnamed hnamed

theorem leavesOut_certain {modes : List Mode} {filename header keyword : List Char} {mode : Mode}
    (hunnamed : Unnamed modes header keyword) (hmem : mode ∈ acceptors modes filename)
    (hknown : header ≠ [] → identifies header mode = .ok true) :
    LeavesOut modes filename header keyword
      (.ok (some mode), ⟨modes, modes.filter (skipsName filename)⟩) := by
  have hidentified : header ≠ [] → ¬ Unidentified modes filename header := by
    intro hheader hunidentified
    have hno := hunidentified mode hmem
    rw [hknown hheader] at hno
    cases hno
  refine ⟨⟨some mode, rfl⟩, fun other => (caught_iff_of_identified hunnamed hidentified).symm, ?_⟩
  rintro other hcaught ⟨⟩
  have hskip := (List.mem_filter.mp ((caught_iff_of_identified hunnamed hidentified).mp hcaught)).2
  rw [skipsName_of_mem_acceptors hmem] at hskip
  cases hskip

theorem leavesOut_fallback {modes : List Mode} {filename keyword : List Char} {fallback : Option Mode}
    (hunnamed : Unnamed modes [] keyword)
    (hfallback : ∀ mode, fallback = some mode → mode ∈ acceptors modes filename) :
    LeavesOut modes filename [] keyword (.ok fallback, ⟨modes, modes.filter (skipsName filename)⟩) := by
  have hnone : ([] : List Char) ≠ [] → ¬ Unidentified modes filename [] := fun h => absurd rfl h
  refine ⟨⟨fallback, rfl⟩, fun other => (caught_iff_of_identified hunnamed hnone).symm, ?_⟩
  rintro other hcaught hfound
  have hskip := (List.mem_filter.mp ((caught_iff_of_identified hunnamed hnone).mp hcaught)).2
  rw [skipsName_of_mem_acceptors (hfallback other (Except.ok.inj hfound))] at hskip
  cases hskip

theorem leavesOut_magic {modes : List Mode} {filename header keyword : List Char}
    {fallback : Option Mode} (hunnamed : Unnamed modes header keyword) (hheader : header ≠ [])
    (hunidentified : Unidentified modes filename header)
    (hfallback : ∀ mode, fallback = some mode →
      mode ∈ acceptors modes filename ∧ mode.verifyMagic header = .ok none) :
    LeavesOut modes filename header keyword
      (.ok (((modes.filter fun mode => !skipsName filename mode).filter fun mode =>
          isYes (identifies header mode)).head?.or fallback),
        ⟨modes, modes.filter (skipsName filename) ++
          (modes.filter fun mode => !skipsName filename mode).filter fun mode =>
            isSkip (identifies header mode)⟩) := by
  refine ⟨⟨_, rfl⟩, fun mode => (caught_iff_of_unidentified hunnamed hheader hunidentified).symm, ?_⟩
  intro mode hcaught hfound
  rw [caught_iff_of_unidentified hunnamed hheader hunidentified, List.mem_append, List.mem_filter,
    List.mem_filter, isSkip_identifies] at hcaught
  rcases Option.or_eq_some_iff.mp (Except.ok.inj hfound) with hhead | ⟨-, hlast⟩
  · -- a mode that is found by its magic has been left, and has answered
    obtain ⟨hleft, hyes⟩ := List.mem_filter.mp (List.mem_of_mem_head? hhead)
    have hkept := (List.mem_filter.mp hleft).2
    rcases hcaught with ⟨-, hskip⟩ | ⟨-, hskip⟩
    · simp [hskip] at hkept
    · rw [← isSkip_identifies] at hskip
      cases hanswer : identifies header mode with
      | ok answer => simp [hanswer, isSkip] at hskip
      | error e => simp [hanswer, isYes] at hyes
  · obtain ⟨hmem, hmagic⟩ := hfallback mode hlast
    rcases hcaught with ⟨-, hskip⟩ | ⟨-, hskip⟩
    · simp [skipsName_of_mem_acceptors hmem] at hskip
    · simp [hmagic, isSkip] at hskip

/-- A search fails with what a test asks for where nobody listens, or leaves out the modes that ask for it. -/
theorem find_cases {matcher : Matcher} (hdistinct : Mode.Distinct matcher.modes)
    (hcourteous : ∀ mode ∈ matcher.modes, mode.Courteous) (filename header keyword : List Char) :
    (∃ e, Escapes matcher.modes filename header keyword e) ∨
      LeavesOut matcher.modes filename header keyword ((find filename header keyword).effect matcher) := by
  have hkeyword := byKeyword_effect matcher.modes keyword
  have hmodeline := byModeline_effect matcher.modes header
  obtain ⟨hnone, hunclaimed⟩ | ⟨mode, hsome, hclaimed⟩ | ⟨mode, e, hasked, he, -⟩ :=
    claimant_eq matcher.modes keyword
  rotate_left
  · rw [hsome] at hkeyword
    rw [find, Step.effect_bind_change, Step.effect_bind_of_ok hkeyword]
    exact .inr (leavesOut_of_named (fun h => hclaimed h.1) _)
  · exact .inl ⟨e, .keyword hasked he⟩
  obtain ⟨-, hunclaimed'⟩ | ⟨mode, hsome, hclaimed⟩ | ⟨mode, e, hasked, he, -⟩ :=
    claimant_eq matcher.modes (modelineKeyword header)
  rotate_left
  · rw [hnone] at hkeyword
    rw [hsome] at hmodeline
    have heffect : (find filename header keyword).effect matcher =
        (.ok (some mode), ⟨matcher.modes, []⟩) := by
      rw [find, Step.effect_bind_change, Step.effect_bind_of_ok hkeyword]
      exact Step.effect_bind_of_ok hmodeline
    rw [heffect]
    exact .inr (leavesOut_of_named (fun h => hclaimed h.2) _)
  · exact .inl ⟨e, .modeline hunclaimed hasked he⟩
  have hunnamed : Unnamed matcher.modes header keyword := ⟨hunclaimed, hunclaimed'⟩
  have hname := byName_effect hdistinct hcourteous filename header
  rw [find_effect_of_unnamed hunnamed]
  obtain ⟨mode, hmem, hchosen, hknown⟩ | ⟨fallback, hchosen, hfallback, hno⟩ |
      ⟨mode, e, hheader, hasked, he, -⟩ := chooseByName_eq header (acceptors matcher.modes filename)
  · rw [hchosen] at hname
    rw [Step.effect_bind_of_ok hname]
    exact .inr (leavesOut_certain hunnamed hmem hknown)
  · rw [hchosen] at hname
    rw [Step.effect_bind_of_ok hname]
    refine .inr ?_
    by_cases hheader : header = []
    · subst hheader
      exact leavesOut_fallback hunnamed fun mode hmode => (hfallback mode hmode).1
    · simp only [findByMagic_effect (skipsName filename) hdistinct hcourteous hheader]
      exact leavesOut_magic hunnamed hheader (hno hheader) hfallback
  · exact .inl ⟨e, .accepted hunnamed hheader hasked he⟩

/-- A search among modes whose tests give an answer or ask to leave the mode out. It fails exactly when a test
asks for that where nobody listens. Else it returns a mode or none, it has left out the modes that asked for it
and no others, and what it returns is none of them. -/
theorem find_skips {plugins : List Plugin} {matcher : Matcher}
    (hmodes : matcher.modes = (ofPlugins plugins).modes)
    (hcourteous : ∀ mode ∈ matcher.modes, mode.Courteous) (filename header keyword : List Char) :
    let outcome := (find filename header keyword).run matcher
    (∀ e, outcome.result = .error e ↔ Escapes matcher.modes filename header keyword e) ∧
      ∀ found, outcome.result = .ok found →
        (∀ mode, mode ∈ outcome.state.skipped ↔ Caught matcher.modes filename header keyword mode) ∧
        ∀ mode, Caught matcher.modes filename header keyword mode → found ≠ some mode := by
  intro outcome
  have hdistinct : Mode.Distinct matcher.modes := hmodes ▸ ofPlugins_distinct plugins
  have hescapes (e : VerifyError) (he : Escapes matcher.modes filename header keyword e) :
      outcome.result = .error e := find_effect_of_escapes hdistinct hcourteous he
  constructor
  · intro e
    refine ⟨fun hresult => ?_, hescapes e⟩
    obtain ⟨e', he'⟩ | hleaves := find_cases hdistinct hcourteous filename header keyword
    · obtain rfl := Except.error.inj (hresult.symm.trans (hescapes e' he'))
      exact he'
    · obtain ⟨found, hfound⟩ := hleaves.returns
      cases hresult.symm.trans hfound
  · intro found hresult
    obtain ⟨e, he⟩ | hleaves := find_cases hdistinct hcourteous filename header keyword
    · cases hresult.symm.trans (hescapes e he)
    · refine ⟨hleaves.skipped, fun mode hcaught hfound => hleaves.found mode hcaught ?_⟩
      exact hresult.trans (congrArg _ hfound)

/-- A mode for files of its own extension that asks to be left out when it is asked for its magic. -/
def shy : Mode :=
  { Mode.base.derive "Shy" "Shy" "shy" [] with
    verifyFilename := fun _ filename => .ok (Filename.extension filename == "shy".toList)
    verifyMagic := fun _ => .error (.skip "no magic") }

/-- A search among a mode that asks to be left out and the mode for listings. -/
def shySearch : Matcher := ofPlugins [{ Plugin.inert "shy" "shy" with modes := [shy] }, Plugin.listing]

theorem shySearch_courteous : ∀ mode ∈ shySearch.modes, mode.Courteous := by
  have hshy : shy.Courteous := ⟨fun _ => nofun, fun _ _ _ => rfl, fun _ => nofun⟩
  have hlisting : Mode.listing.Courteous := ⟨fun _ => nofun, fun _ => nofun, fun _ => nofun⟩
  have hmodes : shySearch.modes = [shy, Mode.listing] := rfl
  simp [hmodes, hshy, hlisting]

theorem find_skips_shy :
    let outcome := (find [] "# Python bytecode".toList []).run shySearch
    outcome.result = .ok (some Mode.listing) ∧ shy ∈ outcome.state.skipped := by
  intro outcome
  have hskips := @find_skips _ shySearch rfl shySearch_courteous [] "# Python bytecode".toList []
  have hresult : outcome.result = .ok (some Mode.listing) := rfl
  refine ⟨hresult, ((hskips.2 _ hresult).1 shy).mpr ?_⟩
  exact .magic (.head _) ⟨.inl rfl, .inl rfl⟩ (List.cons_ne_nil _ _) nofun rfl rfl

/-- What the magic test of a mode asks for is not heeded when the mode has accepted the name of the file. -/
theorem find_shy_fails :
    (∀ mode ∈ shySearch.modes, mode.Courteous) ∧
      ((find "a.shy".toList "x".toList []).run shySearch).result = .error (.skip "no magic") :=
  ⟨shySearch_courteous, rfl⟩

end Matcher

end ListingEditor
