import ListingEditor.Listing.Comment
import Mathlib.Data.List.Basic
import Mathlib.Order.Bounds.Basic

/-!
The search for a comment. It finds the first place where the marker stands without a backslash before it, whatever the
marker is; to look for the marker again behind each place with a backslash comes to the same.
-/

namespace ListingEditor.Listing

/-- A place of a line at which a comment can start: the marker stands there, and no backslash before it. -/
structure StartsComment (marker text : List Char) (place : Nat) : Prop where
  inside : place ≤ text.length
  marked : marker <+: text.drop place
  unescaped : place = 0 ∨ text[place - 1]? ≠ some '\\'

instance (marker text : List Char) (place : Nat) : Decidable (StartsComment marker text place) :=
  decidable_of_iff (place ≤ text.length ∧ marker <+: text.drop place ∧ (place = 0 ∨ text[place - 1]? ≠ some '\\'))
    ⟨fun ⟨hinside, hmarked, hunescaped⟩ => ⟨hinside, hmarked, hunescaped⟩,
      fun h => ⟨h.inside, h.marked, h.unescaped⟩⟩

/-- The first place from `start` on at which a comment can start, if there is one. -/
def FirstFrom (marker text : List Char) (start : Nat) : Option Nat → Prop
  | some place => IsLeast {i | start ≤ i ∧ StartsComment marker text i} place
  | none => ∀ place, start ≤ place → ¬ StartsComment marker text place

variable {marker text : List Char} {start : Nat}

theorem FirstFrom.unique {a b : Option Nat} (ha : FirstFrom marker text start a) (hb : FirstFrom marker text start b) :
    a = b := by
  cases a with
  | none =>
    cases b with
    | none => rfl
    | some j => exact absurd hb.1.2 (ha j hb.1.1)
  | some i =>
    cases b with
    | none => exact absurd ha.1.2 (hb i ha.1.1)
    | some j => exact congrArg some (IsLeast.unique ha hb)

/-- The search may start later, as long as it passes over no place where a comment can start. -/
theorem FirstFrom.of_passed {next : Nat} {found : Option Nat} (hfound : FirstFrom marker text next found)
    (hle : start ≤ next) (hpassed : ∀ i, start ≤ i → i < next → ¬ StartsComment marker text i) :
    FirstFrom marker text start found := by
  have hbehind {i : Nat} (hi : start ≤ i) (hstarts : StartsComment marker text i) : next ≤ i :=
    Nat.le_of_not_lt fun hlt => hpassed i hi hlt hstarts
  cases found with
  | none => exact fun i hi hstarts => hfound i (hbehind hi hstarts) hstarts
  | some place =>
    refine ⟨⟨hle.trans hfound.1.1, hfound.1.2⟩, ?_⟩
    rintro i ⟨hi, hstarts⟩
    exact hfound.2 ⟨hbehind hi hstarts, hstarts⟩

theorem StartsComment.firstFrom (hstarts : StartsComment marker text start) :
    FirstFrom marker text start (some start) :=
  ⟨⟨Nat.le_refl start, hstarts⟩, fun _ hi => hi.1⟩

theorem startsComment_append_iff {front rest : List Char} :
    StartsComment marker (front ++ rest) front.length ↔ front.getLast? ≠ some '\\' ∧ marker <+: rest := by
  have hbefore : front.length = 0 ∨ (front ++ rest)[front.length - 1]? ≠ some '\\' ↔ front.getLast? ≠ some '\\' := by
    cases front with
    | nil => simp
    | cons c front =>
      rw [List.getLast?_eq_getElem?, List.getElem?_append_left (by simp)]
      simp
  rw [← hbefore]
  constructor
  · rintro ⟨-, hmarked, hunescaped⟩
    exact ⟨hunescaped, by rwa [List.drop_left] at hmarked⟩
  · rintro ⟨hunescaped, hmarked⟩
    exact ⟨by simp, by rwa [List.drop_left], hunescaped⟩

/-- The search goes through the places of a line one by one. -/
theorem commentStartFrom_firstFrom (marker front rest : List Char) :
    FirstFrom marker (front ++ rest) front.length
      (commentStartFrom marker (front.getLast? == some '\\') front.length rest) := by
  have hhere (front rest : List Char) : (!(front.getLast? == some '\\') && marker.isPrefixOf rest) = true ↔
      StartsComment marker (front ++ rest) front.length := by
    rw [startsComment_append_iff]
    simp
  induction rest generalizing front with
  | nil =>
    rw [commentStartFrom]
    split
    · rename_i hstarts
      exact ((hhere front []).mp hstarts).firstFrom
    · rename_i hnot
      intro place hle hstarts
      have hinside := hstarts.inside
      rw [List.append_nil] at hinside
      obtain rfl : place = front.length := Nat.le_antisymm hinside hle
      exact hnot ((hhere front []).mpr hstarts)
  | cons c rest ih =>
    rw [commentStartFrom]
    split
    · rename_i hstarts
      exact ((hhere front (c :: rest)).mp hstarts).firstFrom
    · rename_i hnot
      have hlater := ih (front ++ [c])
      rw [List.getLast?_concat, List.length_append, List.length_singleton, List.append_assoc,
        List.singleton_append] at hlater
      refine hlater.of_passed (Nat.le_succ _) fun i hle hlt hstarts => hnot ?_
      obtain rfl : i = front.length := by omega
      exact (hhere front (c :: rest)).mpr hstarts

theorem commentStart?_firstFrom (marker text : List Char) : FirstFrom marker text 0 (commentStart? marker text) :=
  commentStartFrom_firstFrom marker [] text

/-- The first place from `start` on at which the marker stands, with a backslash before it or without. -/
def occurrence? (marker text : List Char) (start : Nat) : Option Nat :=
  (List.range' start (text.length + 1 - start)).find? fun place => marker.isPrefixOf (text.drop place)

theorem occurrence?_eq_some {place : Nat} (hfound : occurrence? marker text start = some place) :
    start ≤ place ∧ place ≤ text.length ∧ marker <+: text.drop place ∧
      ∀ i, start ≤ i → i < place → ¬ marker <+: text.drop i := by
  rw [occurrence?, List.find?_range'_eq_some] at hfound
  obtain ⟨hhere, hmem, hbefore⟩ := hfound
  rw [List.mem_range'_1] at hmem
  refine ⟨hmem.1, by omega, List.isPrefixOf_iff_prefix.mp hhere, fun i hle hlt hmarked => ?_⟩
  have hnot := hbefore i hle hlt
  rw [List.isPrefixOf_iff_prefix.mpr hmarked] at hnot
  cases hnot

theorem occurrence?_eq_none (hnone : occurrence? marker text start = none) {place : Nat} (hle : start ≤ place)
    (hinside : place ≤ text.length) : ¬ marker <+: text.drop place := by
  rw [occurrence?, List.find?_eq_none] at hnone
  have hmem : place ∈ List.range' start (text.length + 1 - start) := List.mem_range'_1.mpr ⟨hle, by omega⟩
  simpa [List.isPrefixOf_iff_prefix] using hnone place hmem

/-- Looks for the marker from `start` on, and again right behind each place where a backslash stands before it. -/
def searchFrom (marker text : List Char) (start : Nat) : Option Nat :=
  match hfound : occurrence? marker text start with
  | none => none
  | some place =>
    if place = 0 ∨ text[place - 1]? ≠ some '\\' then some place else searchFrom marker text (place + 1)
termination_by text.length + 1 - start
decreasing_by
  have hbounds := occurrence?_eq_some hfound
  omega

/-- Looking for the marker again passes over no place where a comment can start. -/
theorem searchFrom_firstFrom (marker text : List Char) (start : Nat) :
    FirstFrom marker text start (searchFrom marker text start) := by
  fun_induction searchFrom marker text start with
  | case1 start hnone =>
    exact fun place hle hstarts => occurrence?_eq_none hnone hle hstarts.inside hstarts.marked
  | case2 start place hfound hunescaped =>
    obtain ⟨hle, hinside, hmarked, hbefore⟩ := occurrence?_eq_some hfound
    have hstarts : StartsComment marker text place := ⟨hinside, hmarked, hunescaped⟩
    exact hstarts.firstFrom.of_passed hle fun i hi hlt hearlier => hbefore i hi hlt hearlier.marked
  | case3 start place hfound hescaped ih =>
    obtain ⟨hle, -, -, hbefore⟩ := occurrence?_eq_some hfound
    refine ih.of_passed (by omega) fun i hi hlt hstarts => ?_
    by_cases hhere : i = place
    · exact hescaped (hhere ▸ hstarts.unescaped)
    · exact hbefore i hi (by omega) hstarts.marked

/-- The search for a comment finds the first place at which one can start, and nothing only if there is none. Looking
for the marker again behind each place with a backslash ends, and finds the same. -/
theorem commentStart?_least (marker text : List Char) :
    (∀ place, commentStart? marker text = some place ↔ IsLeast {i | StartsComment marker text i} place) ∧
      (commentStart? marker text = none ↔ ∀ place, ¬ StartsComment marker text place) ∧
      searchFrom marker text 0 = commentStart? marker text := by
  have hfirst := commentStart?_firstFrom marker text
  refine ⟨fun place => ⟨fun hfound => ?_, fun hleast => ?_⟩, ⟨fun hnone place => ?_, fun hnone => ?_⟩,
    (searchFrom_firstFrom marker text 0).unique hfirst⟩
  · rw [hfound] at hfirst
    exact ⟨hfirst.1.2, fun i hi => hfirst.2 ⟨Nat.zero_le i, hi⟩⟩
  · exact hfirst.unique ⟨⟨Nat.zero_le place, hleast.1⟩, fun i hi => hleast.2 hi.2⟩
  · rw [hnone] at hfirst
    exact hfirst place (Nat.zero_le place)
  · exact hfirst.unique fun place _ => hnone place

/-- A marker of two characters that overlaps itself, with a backslash before the first place where it stands. -/
example : commentStart? ['#', '#'] ['\\', '#', '#', '#'] = some 2 ∧
    ¬ StartsComment ['#', '#'] ['\\', '#', '#', '#'] 1 := by decide

/-- The empty marker stands at every place. -/
example : commentStart? [] ['a'] = some 0 := by decide

end ListingEditor.Listing
