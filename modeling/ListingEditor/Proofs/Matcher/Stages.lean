import ListingEditor.Matcher
import ListingEditor.Proofs.Step
import Mathlib.Data.List.Pairwise

/-!
What the stages of a search come to. Some ask the modes in turn until one says yes, and fail where a test gives
no answer; others ask all modes and leave out those that ask for it.
-/

namespace ListingEditor

/-- A test that asks to leave its mode out of the search. -/
def VerifyError.isSkip {α : Type} : Except VerifyError α → Bool
  | .error (.skip _) => true
  | _ => false

/-- A test that says yes. -/
def VerifyError.isYes : Except VerifyError Bool → Bool
  | .ok answer => answer
  | .error _ => false

/-- A test that gives an answer or asks to leave its mode out. -/
def VerifyError.Courteous {α : Type} (answer : Except VerifyError α) : Prop :=
  ∀ e, answer = .error e → isSkip answer = true

open VerifyError (isSkip isYes Courteous)

namespace Mode

/-- Modes of different names. -/
def Distinct (modes : List Mode) : Prop := modes.Pairwise fun a b => a.name ≠ b.name

theorem beq_iff {mode other : Mode} : (mode == other) = true ↔ mode.name = other.name := by
  change (mode.name == other.name) = true ↔ _
  exact beq_iff_eq

theorem contains_iff {modes : List Mode} {mode : Mode} :
    modes.contains mode = true ↔ ∃ other ∈ modes, mode.name = other.name := by
  simp only [List.contains_iff_exists_mem_beq, beq_iff]

/-- Among modes of different names a mode is known by its name. -/
theorem Distinct.eq_of_name_eq {modes : List Mode} (hdistinct : Distinct modes) {mode other : Mode}
    (hmode : mode ∈ modes) (hother : other ∈ modes) (hname : mode.name = other.name) : mode = other := by
  have hsymm : Std.Symm fun a b : Mode => a.name ≠ b.name := ⟨fun _ _ h => h.symm⟩
  by_contra hne
  exact hdistinct.forall hmode hother hne hname

end Mode

namespace Matcher

theorem insertBySpecificity_perm {α : Type} (descends : α → α → Bool) (x : α) (xs : List α) :
    (insertBySpecificity descends x xs).Perm (x :: xs) := by
  induction xs with
  | nil => exact .refl _
  | cons y ys ih =>
    unfold insertBySpecificity
    split
    · exact .refl _
    · exact (ih.cons y).trans (.swap x y ys)

theorem foldl_insertBySpecificity_perm {α : Type} (descends : α → α → Bool) (xs ordered : List α) :
    (xs.foldl (fun ordered x => insertBySpecificity descends x ordered) ordered).Perm (xs ++ ordered) := by
  induction xs generalizing ordered with
  | nil => exact .refl _
  | cons x xs ih =>
    have hinserted : (xs ++ insertBySpecificity descends x ordered).Perm (xs ++ x :: ordered) :=
      (insertBySpecificity_perm descends x ordered).append_left xs
    exact (ih _).trans (hinserted.trans List.perm_middle)

theorem addNew_of_name_ne {modes : List Mode} {mode : Mode} (hnew : ∀ other ∈ modes, mode.name ≠ other.name) :
    addNew modes mode = modes ++ [mode] := by
  rw [addNew, if_neg]
  rw [Mode.contains_iff]
  rintro ⟨other, hmem, hname⟩
  exact hnew other hmem hname

theorem distinct_foldl_addNew (announced : List Mode) {modes : List Mode} (hdistinct : Mode.Distinct modes) :
    Mode.Distinct (announced.foldl addNew modes) := by
  induction announced generalizing modes with
  | nil => exact hdistinct
  | cons mode announced ih =>
    apply ih
    by_cases hknown : modes.contains mode = true
    · rwa [addNew, if_pos hknown]
    · rw [addNew, if_neg hknown]
      refine List.pairwise_append.mpr ⟨hdistinct, List.pairwise_singleton _ _, ?_⟩
      simp only [Mode.contains_iff, not_exists, not_and] at hknown
      intro other hother last hlast hname
      obtain rfl := List.mem_singleton.mp hlast
      exact hknown other hother hname.symm

/-- No two modes of a search have one name. -/
theorem ofPlugins_distinct (plugins : List Plugin) : Mode.Distinct (ofPlugins plugins).modes := by
  have hperm := foldl_insertBySpecificity_perm Mode.descendsFrom
    ((plugins.flatMap (·.modes)).foldl addNew []) []
  rw [List.append_nil] at hperm
  exact hperm.symm.pairwise (distinct_foldl_addNew _ .nil) fun h => h.symm

/-- A mode that is asked when modes are asked in turn: all modes before it say no. -/
def Asked (test : Mode → Except VerifyError Bool) (modes : List Mode) (mode : Mode) : Prop :=
  ∃ front rear, modes = front ++ mode :: rear ∧ ∀ other ∈ front, test other = .ok false

theorem Asked.mem {test : Mode → Except VerifyError Bool} {modes : List Mode} {mode : Mode}
    (hasked : Asked test modes mode) : mode ∈ modes := by
  obtain ⟨front, rear, rfl, -⟩ := hasked
  simp

theorem asked_cons {test : Mode → Except VerifyError Bool} {first mode : Mode} {modes : List Mode} :
    Asked test (first :: modes) mode ↔ mode = first ∨ test first = .ok false ∧ Asked test modes mode := by
  constructor
  · rintro ⟨front, rear, hmodes, hfront⟩
    cases front with
    | nil => exact .inl (List.cons.inj hmodes).1.symm
    | cons other front =>
      obtain ⟨rfl, rfl⟩ := List.cons.inj hmodes
      simp only [List.mem_cons, forall_eq_or_imp] at hfront
      exact .inr ⟨hfront.1, front, rear, rfl, hfront.2⟩
  · rintro (rfl | ⟨hno, front, rear, rfl, hfront⟩)
    · exact ⟨[], modes, rfl, by simp⟩
    · exact ⟨first :: front, rear, rfl, by simpa [hno] using hfront⟩

/-- Asking in turn ends with the first mode that does not say no. -/
theorem first?_eq (test : Mode → Except VerifyError Bool) (modes : List Mode) :
    (first? test modes = .ok none ∧ ∀ mode ∈ modes, test mode = .ok false) ∨
      (∃ mode, Asked test modes mode ∧ test mode = .ok true ∧ first? test modes = .ok (some mode)) ∨
      ∃ mode e, Asked test modes mode ∧ test mode = .error e ∧ first? test modes = .error e := by
  induction modes with
  | nil => exact .inl ⟨rfl, by simp⟩
  | cons first modes ih =>
    simp only [first?]
    cases hfirst : test first with
    | error e => exact .inr (.inr ⟨first, e, asked_cons.mpr (.inl rfl), hfirst, rfl⟩)
    | ok answer =>
      cases answer with
      | true => exact .inr (.inl ⟨first, asked_cons.mpr (.inl rfl), hfirst, rfl⟩)
      | false =>
        obtain ⟨hnone, hall⟩ | ⟨mode, hasked, hyes, hsome⟩ | ⟨mode, e, hasked, he, herror⟩ := ih
        · exact .inl ⟨hnone, by simpa [hfirst] using hall⟩
        · exact .inr (.inl ⟨mode, asked_cons.mpr (.inr ⟨hfirst, hasked⟩), hyes, hsome⟩)
        · exact .inr (.inr ⟨mode, e, asked_cons.mpr (.inr ⟨hfirst, hasked⟩), he, herror⟩)

theorem first?_eq_error_of_asked {test : Mode → Except VerifyError Bool} {modes : List Mode} {mode : Mode}
    {e : VerifyError} (hasked : Asked test modes mode) (herror : test mode = .error e) :
    first? test modes = .error e := by
  induction modes with
  | nil => simpa using hasked.mem
  | cons first modes ih =>
    obtain rfl | ⟨hno, hlater⟩ := asked_cons.mp hasked
    · simp only [first?, herror]
    · simp only [first?, hno, ih hlater]

theorem ignore_effect (matcher : Matcher) (mode : Mode) :
    (ignore mode).effect matcher = (.ok (), { matcher with skipped := addNew matcher.skipped mode }) := rfl

/-- Asking all modes gives those that say yes and leaves out those that ask for it. -/
theorem scan_effect {test : Mode → Except VerifyError Bool} {modes : List Mode} {matcher : Matcher}
    (hskips : ∀ mode ∈ modes, Courteous (test mode))
    (hdistinct : Mode.Distinct modes)
    (hnew : ∀ mode ∈ modes, ∀ other ∈ matcher.skipped, mode.name ≠ other.name) :
    (scan test modes).effect matcher =
      (.ok (modes.filter fun mode => isYes (test mode)),
        { matcher with skipped := matcher.skipped ++ modes.filter fun mode => isSkip (test mode) }) := by
  induction modes generalizing matcher with
  | nil => simp [scan]
  | cons mode modes ih =>
    simp only [List.mem_cons, forall_eq_or_imp] at hskips hnew
    obtain ⟨hfirst, hlater⟩ := List.pairwise_cons.mp hdistinct
    cases htest : test mode with
    | error e =>
      have hskip := hskips.1 e htest
      rw [htest] at hskip
      cases e with
      | skip reason =>
        have hnext : ∀ other ∈ modes, ∀ last ∈ addNew matcher.skipped mode, other.name ≠ last.name := by
          intro other hother last hlast
          rw [addNew_of_name_ne hnew.1, List.mem_append, List.mem_singleton] at hlast
          rcases hlast with hold | rfl
          · exact hnew.2 other hother last hold
          · exact (hfirst other hother).symm
        simp only [scan, htest]
        rw [Step.effect_bind_of_ok (ignore_effect matcher mode), ih hskips.2 hlater hnext,
          addNew_of_name_ne hnew.1]
        simp [htest, isSkip, isYes]
      | _ => cases hskip
    | ok answer =>
      cases answer with
      | true =>
        simp only [scan, htest]
        rw [Step.effect_bind_of_ok (ih hskips.2 hlater hnew.2)]
        simp [htest, isSkip, isYes]
      | false =>
        simp only [scan, htest]
        rw [ih hskips.2 hlater hnew.2]
        simp [htest, isSkip, isYes]

end Matcher

end ListingEditor
