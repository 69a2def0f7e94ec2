import ListingEditor.Proofs.Matcher.Stages
import Mathlib.Data.List.Nodup

/-!
The order in which modes are asked. A mode goes in front of the first mode that it descends from, so that every mode
stands before those that it derives from. A mode that derives from none of those announced before it stays behind
them.
-/

namespace ListingEditor

/-- One element stands before another: it is in front of the first place of the other. -/
def Precedes {α : Type} (xs : List α) (x y : α) : Prop :=
  ∃ front rear, xs = front ++ y :: rear ∧ x ∈ front ∧ y ∉ front

theorem precedes_append_cons_iff {α : Type} {front rear : List α} {x y : α} (hnew : y ∉ front) :
    Precedes (front ++ y :: rear) x y ↔ x ∈ front := by
  constructor
  · rintro ⟨front', rear', heq, hx, hnew'⟩
    rcases List.append_eq_append_iff.mp heq with ⟨between, rfl, hrear⟩ | ⟨between, rfl, -⟩
    · cases between with
      | nil => simpa using hx
      | cons first between =>
        obtain ⟨rfl, -⟩ := List.cons.inj hrear
        exact absurd (by simp) hnew'
    · exact List.mem_append_left between hx
  · intro hx
    exact ⟨front, rear, rfl, hx, hnew⟩

theorem precedes_of_sublist {α : Type} {xs : List α} {x y : α} (hnodup : xs.Nodup)
    (hsublist : [x, y].Sublist xs) : Precedes xs x y := by
  obtain ⟨front, rest, rfl, hx, hy⟩ := List.cons_sublist_iff.mp hsublist
  obtain ⟨between, rear, rfl⟩ := List.append_of_mem (List.singleton_sublist.mp hy)
  rw [← List.append_assoc] at hnodup ⊢
  refine ⟨front ++ between, rear, rfl, List.mem_append_left between hx, ?_⟩
  exact fun hmem => (List.nodup_cons.mp (List.nodup_middle.mp hnodup)).1 (List.mem_append_left rear hmem)

theorem sublist_or_sublist_of_mem {α : Type} {xs : List α} {x y : α} (hx : x ∈ xs) (hy : y ∈ xs)
    (hne : x ≠ y) : [x, y].Sublist xs ∨ [y, x].Sublist xs := by
  obtain ⟨front, rear, rfl⟩ := List.append_of_mem hy
  rcases List.mem_append.mp hx with hfront | hrear
  · exact .inl ((List.singleton_sublist.mpr hfront).append ((List.nil_sublist rear).cons_cons y))
  · have hbehind : x ∈ rear := (List.mem_cons.mp hrear).resolve_left hne
    exact .inr (((List.singleton_sublist.mpr hbehind).cons_cons y).trans (List.sublist_append_right front _))

/-- Where an element is inserted: behind elements that it does not descend from, and in front of one that it descends
from, if there is any. -/
theorem insertBySpecificity_eq {α : Type} (descends : α → α → Bool) (x : α) (xs : List α) :
    ∃ front rear, xs = front ++ rear ∧ insertBySpecificity descends x xs = front ++ x :: rear ∧
      (∀ y ∈ front, descends x y = false) ∧ ∀ y ∈ rear.head?, descends x y = true := by
  induction xs with
  | nil => exact ⟨[], [], rfl, rfl, nofun, nofun⟩
  | cons y ys ih =>
    by_cases hdescends : descends x y = true
    · refine ⟨[], y :: ys, rfl, by rw [insertBySpecificity, if_pos hdescends]; rfl, nofun, ?_⟩
      rintro first ⟨⟩
      exact hdescends
    · obtain ⟨front, rear, rfl, hinserted, hfront, hrear⟩ := ih
      refine ⟨y :: front, rear, rfl, ?_, ?_, hrear⟩
      · rw [insertBySpecificity, if_neg hdescends, hinserted]
        rfl
      · exact List.forall_mem_cons.mpr ⟨Bool.eq_false_iff.mpr hdescends, hfront⟩

theorem insertBySpecificity_of_none {α : Type} {descends : α → α → Bool} {x : α} {xs : List α}
    (hnone : ∀ y ∈ xs, descends x y = false) : insertBySpecificity descends x xs = xs ++ [x] := by
  obtain ⟨front, rear, rfl, hinserted, -, hrear⟩ := insertBySpecificity_eq descends x xs
  cases rear with
  | nil => simpa using hinserted
  | cons y ys =>
    have hno := hnone y (by simp)
    rw [hrear y rfl] at hno
    cases hno

theorem sublist_insertBySpecificity {α : Type} (descends : α → α → Bool) (x : α) (xs : List α) :
    xs.Sublist (insertBySpecificity descends x xs) := by
  obtain ⟨front, rear, rfl, hinserted, -, -⟩ := insertBySpecificity_eq descends x xs
  rw [hinserted]
  exact (List.Sublist.refl front).append (List.sublist_cons_self x rear)

/-- Elements that have been inserted keep their order. -/
theorem sublist_foldl_insertBySpecificity {α : Type} (descends : α → α → Bool) (xs ordered : List α) :
    ordered.Sublist (xs.foldl (fun ordered x => insertBySpecificity descends x ordered) ordered) := by
  induction xs generalizing ordered with
  | nil => exact .refl ordered
  | cons x xs ih => exact (sublist_insertBySpecificity descends x ordered).trans (ih _)

/-- An element that descends from none of those inserted before it comes behind them. -/
theorem sublist_foldl_of_none {α : Type} {descends : α → α → Bool} {xs more : List α} {x y : α} (hx : x ∈ xs)
    (hnone : ∀ z ∈ xs, descends y z = false) :
    [x, y].Sublist ((xs ++ y :: more).foldl (fun ordered x => insertBySpecificity descends x ordered) []) := by
  have hperm := Matcher.foldl_insertBySpecificity_perm descends xs []
  rw [List.append_nil] at hperm
  rw [List.foldl_append, List.foldl_cons,
    insertBySpecificity_of_none fun z hz => hnone z (hperm.mem_iff.mp hz)]
  refine List.Sublist.trans ?_ (sublist_foldl_insertBySpecificity descends more _)
  exact (List.singleton_sublist.mpr (hperm.mem_iff.mpr hx)).append (.refl [y])

namespace Mode

/-- A mode that descends from another one. -/
def DerivesFrom (mode other : Mode) : Prop := mode.descendsFrom other = true ∧ mode.name ≠ other.name

/-- Modes among which descent is a partial order, each known by its name. -/
structure Hierarchy (modes : List Mode) : Prop where
  known : ∀ mode ∈ modes, ∀ other ∈ modes, mode.name = other.name → mode = other
  antisymm : ∀ mode ∈ modes, ∀ other ∈ modes,
    mode.descendsFrom other = true → other.descendsFrom mode = true → mode.name = other.name
  trans : ∀ mode ∈ modes, ∀ other ∈ modes, ∀ last ∈ modes,
    mode.descendsFrom other = true → other.descendsFrom last = true → mode.descendsFrom last = true

theorem Hierarchy.of_subset {modes others : List Mode} (hhierarchy : Hierarchy others)
    (hsubset : modes ⊆ others) : Hierarchy modes where
  known mode hmode other hother := hhierarchy.known mode (hsubset hmode) other (hsubset hother)
  antisymm mode hmode other hother := hhierarchy.antisymm mode (hsubset hmode) other (hsubset hother)
  trans mode hmode other hother last hlast :=
    hhierarchy.trans mode (hsubset hmode) other (hsubset hother) last (hsubset hlast)

theorem Distinct.nodup {modes : List Mode} (hdistinct : Distinct modes) : modes.Nodup :=
  hdistinct.imp fun hname heq => hname (congrArg name heq)

/-- No mode descends from one that stands before it. -/
def Ordered (modes : List Mode) : Prop := modes.Pairwise fun first later => later.descendsFrom first = false

/-- A mode that is inserted finds its place. -/
theorem Ordered.insert {mode : Mode} {modes : List Mode} (hhierarchy : Hierarchy (mode :: modes))
    (hnew : ∀ other ∈ modes, mode.name ≠ other.name) (hordered : Ordered modes) :
    Ordered (insertBySpecificity descendsFrom mode modes) := by
  obtain ⟨front, rear, rfl, hinserted, hfront, hrear⟩ := insertBySpecificity_eq descendsFrom mode modes
  obtain ⟨hfirst, hlater, hacross⟩ := List.pairwise_append.mp hordered
  rw [hinserted]
  refine List.pairwise_append.mpr ⟨hfirst, List.pairwise_cons.mpr ⟨fun other hother => ?_, hlater⟩, ?_⟩
  · -- a mode behind the place that descended from the new one would descend from the first mode behind it
    cases rear with
    | nil => cases hother
    | cons parent rear =>
      by_contra hdescends
      rw [Bool.not_eq_false] at hdescends
      have hparent : mode.descendsFrom parent = true := hrear parent rfl
      rcases List.mem_cons.mp hother with rfl | hbehind
      · exact hnew other (by simp) (hhierarchy.antisymm mode (by simp) other (by simp) hparent hdescends)
      · have hagain := hhierarchy.trans other (by simp [hbehind]) mode (by simp) parent (by simp) hdescends hparent
        rw [(List.pairwise_cons.mp hlater).1 other hbehind] at hagain
        cases hagain
  · intro other hother later hbehind
    rcases List.mem_cons.mp hbehind with rfl | hold
    · exact hfront other hother
    · exact hacross other hother later hold

theorem Ordered.insert_all {new modes : List Mode} (hhierarchy : Hierarchy (new ++ modes))
    (hdistinct : Distinct (new ++ modes)) (hordered : Ordered modes) :
    Ordered (new.foldl (fun ordered mode => insertBySpecificity descendsFrom mode ordered) modes) := by
  induction new generalizing modes with
  | nil => exact hordered
  | cons mode new ih =>
    have hinserted : (new ++ insertBySpecificity descendsFrom mode modes).Perm (mode :: new ++ modes) :=
      ((Matcher.insertBySpecificity_perm descendsFrom mode modes).append_left new).trans List.perm_middle
    apply ih
    · exact hhierarchy.of_subset hinserted.subset
    · exact hinserted.symm.pairwise hdistinct fun h => h.symm
    · apply hordered.insert
      · exact hhierarchy.of_subset (List.cons_subset_cons mode (List.subset_append_right new modes))
      · intro other hother
        exact (List.pairwise_cons.mp hdistinct).1 other (List.mem_append_right new hother)

end Mode

namespace Matcher

/-- The modes that plugins announce, in turn. -/
def announced (plugins : List Plugin) : List Mode := plugins.flatMap (·.modes)

theorem mem_foldl_addNew_iff {announcing modes : List Mode} (hhierarchy : Mode.Hierarchy (modes ++ announcing))
    {mode : Mode} : mode ∈ announcing.foldl addNew modes ↔ mode ∈ modes ++ announcing := by
  induction announcing generalizing modes with
  | nil => simp
  | cons first announcing ih =>
    have hadded : ∀ mode, mode ∈ addNew modes first ↔ mode ∈ modes ∨ mode = first := by
      intro mode
      by_cases hknown : modes.contains first = true
      · obtain ⟨other, hother, hname⟩ := Mode.contains_iff.mp hknown
        obtain rfl := hhierarchy.known first (by simp) other (by simp [hother]) hname
        rw [addNew, if_pos hknown]
        exact ⟨.inl, fun h => h.elim id fun heq => heq ▸ hother⟩
      · rw [addNew, if_neg hknown, List.mem_append, List.mem_singleton]
    have hmem : ∀ mode, mode ∈ addNew modes first ++ announcing ↔ mode ∈ modes ++ first :: announcing := by
      intro mode
      rw [List.mem_append, hadded, List.mem_append, List.mem_cons, or_assoc]
    rw [List.foldl_cons, ih (hhierarchy.of_subset fun mode => (hmem mode).mp), hmem]

/-- What has been announced stays in front. -/
theorem exists_foldl_addNew_eq_append (announcing modes : List Mode) :
    ∃ more, announcing.foldl addNew modes = modes ++ more := by
  induction announcing generalizing modes with
  | nil => exact ⟨[], by simp⟩
  | cons mode announcing ih =>
    obtain ⟨more, hmore⟩ := ih (addNew modes mode)
    by_cases hknown : modes.contains mode = true
    · refine ⟨more, ?_⟩
      rw [List.foldl_cons, hmore, addNew, if_pos hknown]
    · refine ⟨mode :: more, ?_⟩
      rw [List.foldl_cons, hmore, addNew, if_neg hknown]
      simp

theorem ofPlugins_perm (plugins : List Plugin) :
    (ofPlugins plugins).modes.Perm ((announced plugins).foldl addNew []) := by
  have hperm := foldl_insertBySpecificity_perm Mode.descendsFrom ((announced plugins).foldl addNew []) []
  rwa [List.append_nil] at hperm

theorem mem_ofPlugins_iff {plugins : List Plugin} (hhierarchy : Mode.Hierarchy (announced plugins)) {mode : Mode} :
    mode ∈ (ofPlugins plugins).modes ↔ mode ∈ announced plugins := by
  rw [(ofPlugins_perm plugins).mem_iff, mem_foldl_addNew_iff hhierarchy, List.nil_append]

theorem ofPlugins_ordered {plugins : List Plugin} (hhierarchy : Mode.Hierarchy (announced plugins)) :
    Mode.Ordered (ofPlugins plugins).modes := by
  apply Mode.Ordered.insert_all
  · rw [List.append_nil]
    exact hhierarchy.of_subset fun mode => (mem_foldl_addNew_iff hhierarchy).mp
  · rw [List.append_nil]
    exact distinct_foldl_addNew _ .nil
  · exact .nil

/-- A mode that derives from none of those announced before it is put behind them. -/
theorem ofPlugins_keeps_order {plugins : List Plugin} (hhierarchy : Mode.Hierarchy (announced plugins))
    {mode other : Mode} (hbefore : Precedes (announced plugins) mode other)
    (hroot : ∀ ancestor, other.DerivesFrom ancestor → ¬ Precedes (announced plugins) ancestor other) :
    [mode, other].Sublist (ofPlugins plugins).modes := by
  obtain ⟨front, rear, hannounced, hmode, hnew⟩ := hbefore
  have hfront : Mode.Hierarchy ([] ++ front) := hhierarchy.of_subset (by simp [hannounced])
  have hmem (earlier : Mode) : earlier ∈ front.foldl addNew [] ↔ earlier ∈ front := mem_foldl_addNew_iff hfront
  have hname (earlier : Mode) (hearlier : earlier ∈ front) : other.name ≠ earlier.name := by
    intro hsame
    have heq := hhierarchy.known other (by simp [hannounced]) earlier (by simp [hannounced, hearlier]) hsame
    exact hnew (heq ▸ hearlier)
  have hadded : addNew (front.foldl addNew []) other = front.foldl addNew [] ++ [other] :=
    addNew_of_name_ne fun earlier hearlier => hname earlier ((hmem earlier).mp hearlier)
  obtain ⟨more, hmore⟩ := exists_foldl_addNew_eq_append rear (front.foldl addNew [] ++ [other])
  change [mode, other].Sublist (orderBySpecificity Mode.descendsFrom (announced plugins))
  rw [orderBySpecificity, hannounced, List.foldl_append, List.foldl_cons, hadded, hmore, List.append_assoc]
  apply sublist_foldl_of_none ((hmem mode).mpr hmode)
  intro earlier hearlier
  have hold : earlier ∈ front := (hmem earlier).mp hearlier
  by_contra hdescends
  rw [Bool.not_eq_false] at hdescends
  exact hroot earlier ⟨hdescends, hname earlier hold⟩ ⟨front, rear, hannounced, hold, hnew⟩

/-- The modes of a search are those that plugins announce, each once. Every mode stands before those that it derives
from; and a mode that has none of these announced before it stands behind all that have been announced before it. -/
theorem ofPlugins_most_specific_first {plugins : List Plugin} (hhierarchy : Mode.Hierarchy (announced plugins)) :
    let modes := (ofPlugins plugins).modes
    modes.Nodup ∧ (∀ mode, mode ∈ modes ↔ mode ∈ announced plugins) ∧
      (∀ mode ∈ modes, ∀ ancestor ∈ modes, mode.DerivesFrom ancestor → Precedes modes mode ancestor) ∧
      ∀ mode other, Precedes (announced plugins) mode other →
        (∀ ancestor, other.DerivesFrom ancestor → ¬ Precedes (announced plugins) ancestor other) →
        Precedes modes mode other := by
  intro modes
  have hnodup : modes.Nodup := (ofPlugins_distinct plugins).nodup
  refine ⟨hnodup, fun mode => mem_ofPlugins_iff hhierarchy, ?_, ?_⟩
  · intro mode hmode ancestor hancestor hderives
    apply precedes_of_sublist hnodup
    have hne : mode ≠ ancestor := fun heq => hderives.2 (congrArg Mode.name heq)
    refine (sublist_or_sublist_of_mem hmode hancestor hne).resolve_right fun hafter => ?_
    have hno := List.pairwise_pair.mp ((ofPlugins_ordered hhierarchy).sublist hafter)
    rw [hderives.1] at hno
    cases hno
  · intro mode other hbefore hroot
    exact precedes_of_sublist hnodup (ofPlugins_keeps_order hhierarchy hbefore hroot)

/-- A mode that derives from the one that all derive from. -/
def diamondLeft : Mode := Mode.base.derive "Left" "Left" "left" []

/-- A mode beside `diamondLeft`. -/
def diamondRight : Mode := Mode.base.derive "Right" "Right" "right" []

/-- A mode that derives from both `diamondLeft` and `diamondRight`. -/
def diamondBottom : Mode :=
  { diamondLeft.derive "Bottom" "Bottom" "bottom" [] with lineage := ["Bottom", "Left", "Right", "MajorMode"] }

/-- Plugins that announce modes before those that they derive from and behind them, and one of them twice. -/
def diamond : List Plugin :=
  [{ Plugin.inert "one" "one" with modes := [diamondLeft, diamondBottom] },
    { Plugin.inert "two" "two" with modes := [diamondRight, diamondLeft, Mode.base] }]

theorem diamond_hierarchy : Mode.Hierarchy (announced diamond) := by
  have hannounced : announced diamond = [diamondLeft, diamondBottom, diamondRight, diamondLeft, Mode.base] := rfl
  rw [hannounced]
  refine ⟨?_, by decide +kernel, by decide +kernel⟩
  have hdistinct : Mode.Distinct [diamondLeft, diamondBottom, diamondRight, Mode.base] := by
    unfold Mode.Distinct
    decide +kernel
  have hsubset : [diamondLeft, diamondBottom, diamondRight, diamondLeft, Mode.base] ⊆
      [diamondLeft, diamondBottom, diamondRight, Mode.base] := by simp
  intro mode hmode other hother
  exact hdistinct.eq_of_name_eq (hsubset hmode) (hsubset hother)

theorem ofPlugins_most_specific_first_diamond :
    Mode.Hierarchy (announced diamond) ∧ Precedes (ofPlugins diamond).modes diamondBottom diamondRight ∧
      Precedes (ofPlugins diamond).modes diamondLeft diamondRight := by
  obtain ⟨-, hmem, hspecific, hkept⟩ := ofPlugins_most_specific_first diamond_hierarchy
  refine ⟨diamond_hierarchy, ?_, ?_⟩
  · apply hspecific
    · exact (hmem diamondBottom).mpr (.tail _ (.head _))
    · exact (hmem diamondRight).mpr (.tail _ (.tail _ (.head _)))
    · exact ⟨by decide +kernel, by decide +kernel⟩
  · have hfront : diamondRight ∉ [diamondLeft, diamondBottom] := by
      intro hright
      have hname : diamondRight.name ∈ [diamondLeft, diamondBottom].map Mode.name := List.mem_map_of_mem hright
      revert hname
      decide +kernel
    have hannounced (mode : Mode) :
        Precedes (announced diamond) mode diamondRight ↔ mode ∈ [diamondLeft, diamondBottom] :=
      precedes_append_cons_iff hfront
    apply hkept
    · exact (hannounced diamondLeft).mpr (.head _)
    · intro ancestor hderives hbefore
      have hnone : ∀ mode ∈ [diamondLeft, diamondBottom], ¬ diamondRight.descendsFrom mode = true := by
        decide +kernel
      exact hnone ancestor ((hannounced ancestor).mp hbefore) hderives.1

end Matcher

end ListingEditor
