import ListingEditor.Proofs.Listing.Scan
import Mathlib.Data.List.Nodup
import Mathlib.Data.Set.Basic

/-!
Which proposals win where they overlap. Taken in the order of the rules, and for one rule in the order in which it
makes them, a proposal is kept exactly if none that was kept before overlaps it. Only one set of proposals is like
that, and its regions are those that the rules contribute to a classified line.
-/

namespace ListingEditor.Listing

/-- A region that a rule proposes, with the number of the rule and its place among the proposals of the rule. -/
structure Proposal where
  rule : Nat
  order : Nat
  span : Span
  deriving DecidableEq, Repr

namespace Proposal

/-- The order in which proposals are made. -/
def Before (p q : Proposal) : Prop := p.rule < q.rule ∨ p.rule = q.rule ∧ p.order < q.order

/-- Whether two proposals share a character. -/
def overlaps (p q : Proposal) : Bool := p.span.overlaps q.span.start q.span.stop

/-- A proposal that rules make for a text. It has the category of its rule. -/
def Of (rules : List Rule) (text : List Char) (p : Proposal) : Prop :=
  ∃ rule candidate, rules[p.rule]? = some rule ∧ (rule.candidates text)[p.order]? = some candidate ∧
    p.span = rule.category.region candidate

theorem Before.asymm {p q : Proposal} (hbefore : p.Before q) : ¬ q.Before p := by
  unfold Before at hbefore ⊢
  omega

/-- A proposal is known by its rule and its place. -/
theorem Of.eq {rules : List Rule} {text : List Char} {p q : Proposal} (hp : p.Of rules text)
    (hq : q.Of rules text) (hrule : p.rule = q.rule) (horder : p.order = q.order) : p = q := by
  obtain ⟨rule, candidate, hget, hcandidate, hspan⟩ := hp
  obtain ⟨rule', candidate', hget', hcandidate', hspan'⟩ := hq
  rw [← hrule, hget, Option.some.injEq] at hget'
  subst hget'
  rw [← horder, hcandidate, Option.some.injEq] at hcandidate'
  subst hcandidate'
  cases p
  cases q
  simp_all

/-- Adds a proposal, unless it overlaps one that has been kept. -/
def keep (kept : List Proposal) (p : Proposal) : List Proposal :=
  if kept.any (·.overlaps p) then kept else kept ++ [p]

end Proposal

/-- A set of the proposals for a text in which one is kept exactly if it overlaps no kept one before it. -/
def Resolves (rules : List Rule) (text : List Char) (kept : Set Proposal) : Prop :=
  ∀ p, p ∈ kept ↔ p.Of rules text ∧ ∀ q ∈ kept, q.Before p → q.overlaps p = false

/-- Whether a proposal is kept depends on those before it only. -/
theorem Resolves.mem_iff_mem {rules : List Rule} {text : List Char} {kept other : Set Proposal}
    (hkept : Resolves rules text kept) (hother : Resolves rules text other) (p : Proposal) :
    p ∈ kept ↔ p ∈ other := by
  rw [hkept p, hother p]
  refine and_congr_right fun _ => forall_congr' fun q => ?_
  constructor
  · intro hfree hq hbefore
    exact hfree ((hkept.mem_iff_mem hother q).mpr hq) hbefore
  · intro hfree hq hbefore
    exact hfree ((hkept.mem_iff_mem hother q).mp hq) hbefore
termination_by (p.rule, p.order)
decreasing_by all_goals exact Prod.lex_def.mpr hbefore

/-- The proposals for a text, in order. -/
def proposals (rules : List Rule) (text : List Char) : List Proposal :=
  rules.zipIdx.flatMap fun (rule, number) =>
    (rule.candidates text).zipIdx.map fun (candidate, order) => ⟨number, order, rule.category.region candidate⟩

/-- The proposals that are kept one after the other. -/
def chosen (rules : List Rule) (text : List Char) : List Proposal :=
  (proposals rules text).foldl Proposal.keep []

theorem mem_proposals_iff {rules : List Rule} {text : List Char} {p : Proposal} :
    p ∈ proposals rules text ↔ p.Of rules text := by
  simp only [proposals, List.mem_flatMap, List.mem_map]
  constructor
  · rintro ⟨⟨rule, number⟩, hrule, ⟨candidate, order⟩, hcandidate, rfl⟩
    exact ⟨rule, candidate, List.mem_zipIdx_iff_getElem?.mp hrule, List.mem_zipIdx_iff_getElem?.mp hcandidate, rfl⟩
  · rintro ⟨rule, candidate, hrule, hcandidate, hspan⟩
    refine ⟨(rule, p.rule), List.mem_zipIdx_iff_getElem?.mpr hrule, (candidate, p.order),
      List.mem_zipIdx_iff_getElem?.mpr hcandidate, ?_⟩
    rw [← hspan]

theorem proposals_pairwise (rules : List Rule) (text : List Char) :
    (proposals rules text).Pairwise Proposal.Before := by
  have hnumbered {α : Type} (xs : List α) : xs.zipIdx.Pairwise fun a b => a.2 < b.2 := by
    rw [List.pairwise_iff_getElem]
    intro i j hi hj hlt
    simpa using hlt
  refine List.pairwise_flatMap.mpr ⟨fun numbered _ => ?_, (hnumbered rules).imp fun hlt => ?_⟩
  · exact List.pairwise_map.mpr ((hnumbered _).imp fun hlt => .inr ⟨rfl, hlt⟩)
  · intro p hp q hq
    obtain ⟨_, _, rfl⟩ := List.mem_map.mp hp
    obtain ⟨_, _, rfl⟩ := List.mem_map.mp hq
    exact .inl hlt

/-- What has been kept of the proposals that have been made so far. -/
structure Settles (kept made : List Proposal) : Prop where
  mem_iff : ∀ p, p ∈ kept ↔ p ∈ made ∧ ∀ q ∈ kept, q.Before p → q.overlaps p = false
  ordered : kept.Pairwise Proposal.Before

theorem Proposal.mem_keep_iff {kept : List Proposal} {p q : Proposal} :
    q ∈ keep kept p ↔ q ∈ kept ∨ q = p ∧ ∀ r ∈ kept, r.overlaps p = false := by
  unfold keep
  split
  · rename_i hoverlap
    obtain ⟨r, hr, htrue⟩ := List.any_eq_true.mp hoverlap
    refine ⟨.inl, fun hq => hq.resolve_right fun hfree => ?_⟩
    rw [hfree.2 r hr] at htrue
    cases htrue
  · rename_i hfree
    have hnone : ∀ r ∈ kept, r.overlaps p = false := by simpa using hfree
    rw [List.mem_append, List.mem_singleton]
    exact or_congr_right ⟨fun hq => ⟨hq, hnone⟩, fun hq => hq.1⟩

/-- The next proposal settles its own case, and that of none before it. -/
theorem Settles.keep {kept made : List Proposal} {p : Proposal} (hsettles : Settles kept made)
    (hlast : ∀ q ∈ made, q.Before p) : Settles (Proposal.keep kept p) (made ++ [p]) := by
  have hbefore (q : Proposal) (hq : q ∈ kept) : q.Before p := hlast q ((hsettles.mem_iff q).mp hq).1
  have hself : ¬ p.Before p := fun h => h.asymm h
  refine ⟨fun q => ?_, ?_⟩
  · rw [List.mem_append, List.mem_singleton]
    constructor
    · intro hq
      rcases Proposal.mem_keep_iff.mp hq with hold | ⟨rfl, hfree⟩
      · obtain ⟨hmade, hapart⟩ := (hsettles.mem_iff q).mp hold
        refine ⟨.inl hmade, fun r hr hrq => ?_⟩
        rcases Proposal.mem_keep_iff.mp hr with hkept | ⟨rfl, -⟩
        · exact hapart r hkept hrq
        · exact absurd (hbefore q hold) hrq.asymm
      · refine ⟨.inr rfl, fun r hr hrq => ?_⟩
        rcases Proposal.mem_keep_iff.mp hr with hkept | ⟨rfl, -⟩
        · exact hfree r hkept
        · exact absurd hrq hself
    · rintro ⟨hmade | rfl, hapart⟩
      · refine Proposal.mem_keep_iff.mpr (.inl ((hsettles.mem_iff q).mpr ⟨hmade, fun r hr => ?_⟩))
        exact hapart r (Proposal.mem_keep_iff.mpr (.inl hr))
      · refine Proposal.mem_keep_iff.mpr (.inr ⟨rfl, fun r hr => ?_⟩)
        exact hapart r (Proposal.mem_keep_iff.mpr (.inl hr)) (hbefore r hr)
  · unfold Proposal.keep
    split
    · exact hsettles.ordered
    · refine List.pairwise_append.mpr ⟨hsettles.ordered, List.pairwise_singleton _ _, fun q hq r hr => ?_⟩
      rw [List.mem_singleton.mp hr]
      exact hbefore q hq

theorem Settles.foldl_keep {kept made rest : List Proposal} (hsettles : Settles kept made)
    (hordered : (made ++ rest).Pairwise Proposal.Before) : Settles (rest.foldl Proposal.keep kept) (made ++ rest) := by
  induction rest generalizing kept made with
  | nil => rwa [List.append_nil]
  | cons p rest ih =>
    have hlast (q : Proposal) (hq : q ∈ made) : q.Before p :=
      (List.pairwise_append.mp hordered).2.2 q hq p List.mem_cons_self
    rw [List.append_cons] at hordered ⊢
    exact ih (hsettles.keep hlast) hordered

theorem chosen_settles (rules : List Rule) (text : List Char) :
    Settles (chosen rules text) (proposals rules text) :=
  have hnothing : Settles [] [] := ⟨by simp, .nil⟩
  hnothing.foldl_keep (proposals_pairwise rules text)

/-- Keeping one proposal after the other gives the one set in which each is kept that no kept one before it
overlaps. -/
theorem resolves_iff {rules : List Rule} {text : List Char} {kept : Set Proposal} :
    Resolves rules text kept ↔ ∀ p, p ∈ kept ↔ p ∈ chosen rules text := by
  have hchosen : Resolves rules text { p | p ∈ chosen rules text } := by
    intro p
    rw [← mem_proposals_iff]
    exact (chosen_settles rules text).mem_iff p
  constructor
  · intro hkept p
    exact hkept.mem_iff_mem hchosen p
  · intro hmem
    rwa [show kept = { p | p ∈ chosen rules text } from Set.ext hmem]

theorem map_span_keep (kept : List Proposal) (number order : Nat) (category : Category) (candidate : Nat × Nat) :
    (Proposal.keep kept ⟨number, order, category.region candidate⟩).map (·.span) =
      keep category (kept.map (·.span)) candidate := by
  have hany : (kept.map (·.span)).any (·.overlaps candidate.1 candidate.2) =
      kept.any (·.overlaps ⟨number, order, category.region candidate⟩) := List.any_map
  rw [Proposal.keep, keep, hany]
  split
  · rfl
  · rw [List.map_append]
    rfl

theorem map_span_foldl_keep (kept : List Proposal) (number : Nat) (rule : Rule) (text : List Char) :
    (((rule.candidates text).zipIdx.map fun (candidate, order) =>
        (⟨number, order, rule.category.region candidate⟩ : Proposal)).foldl Proposal.keep kept).map (·.span) =
      applyRule text (kept.map (·.span)) rule := by
  rw [applyRule, ← List.zipIdx_map_fst 0 (rule.candidates text), List.foldl_map, List.foldl_map,
    List.zipIdx_map_fst]
  refine (List.foldl_hom (List.map Proposal.span) fun kept numbered => ?_).symm
  exact (map_span_keep kept number numbered.2 rule.category numbered.1).symm

/-- The regions of the kept proposals are those that the rules keep. -/
theorem map_span_chosen (rules : List Rule) (text : List Char) :
    (chosen rules text).map (·.span) = rules.foldl (applyRule text) [] := by
  have hrules := congrArg (List.foldl (applyRule text) []) (List.zipIdx_map_fst 0 rules)
  rw [chosen, proposals, List.foldl_flatMap, ← hrules, List.foldl_map]
  refine (List.foldl_hom (List.map Proposal.span) fun kept numbered => ?_).symm
  exact (map_span_foldl_keep kept numbered.2 numbered.1 text).symm

/-- The proposals of a built-in rule stand one behind the other. -/
theorem standard_pairwise (text : List Char) {rule : Rule} (hrule : rule ∈ Rule.standard) :
    (rule.candidates text).Pairwise fun c d => c.2 ≤ d.1 := by
  simp only [Rule.standard, List.mem_cons, List.not_mem_nil, or_false] at hrule
  rcases hrule with rfl | rfl | rfl | rfl | rfl | rfl | rfl
  · exact scanFrom_pairwise ..
  · exact (scanFrom_pairwise ..).filter _
  · exact scanFrom_pairwise ..
  · change (label? text).toList.Pairwise _
    cases label? text <;> simp
  · exact scanFrom_pairwise ..
  · exact scanFrom_pairwise ..
  · exact scanFrom_pairwise ..

theorem overlaps_of_standard {text : List Char} {p q : Proposal} (hp : p.Of Rule.standard text)
    (hq : q.Of Rule.standard text) (hrule : p.rule = q.rule) (hne : p ≠ q) : p.overlaps q = false := by
  have horder : p.order ≠ q.order := fun horder => hne (hp.eq hq hrule horder)
  obtain ⟨rule, candidate, hget, hcandidate, hspan⟩ := hp
  obtain ⟨rule', candidate', hget', hcandidate', hspan'⟩ := hq
  rw [← hrule, hget, Option.some.injEq] at hget'
  subst hget'
  obtain ⟨hlt, rfl⟩ := List.getElem?_eq_some_iff.mp hcandidate
  obtain ⟨hlt', rfl⟩ := List.getElem?_eq_some_iff.mp hcandidate'
  have hpairwise := List.pairwise_iff_getElem.mp (standard_pairwise text (List.mem_of_getElem? hget))
  rw [Proposal.overlaps, Span.overlaps_eq_false_iff, hspan, hspan']
  rcases Nat.lt_or_gt_of_ne horder with hbefore | hbehind
  · exact .inl (Int.ofNat_le.mpr (hpairwise _ _ hlt hlt' hbefore))
  · exact .inr (Int.ofNat_le.mpr (hpairwise _ _ hlt' hlt hbehind))

/-- A proposal of a built-in rule is dropped only for one of an earlier rule. -/
theorem Resolves.not_mem_iff_of_standard {text : List Char} {kept : Set Proposal}
    (hkept : Resolves Rule.standard text kept) {p : Proposal} (hp : p.Of Rule.standard text) :
    p ∉ kept ↔ ∃ q ∈ kept, q.rule < p.rule ∧ q.overlaps p = true := by
  constructor
  · intro hdropped
    by_contra hnone
    refine hdropped ((hkept p).mpr ⟨hp, fun q hq hbefore => ?_⟩)
    rcases hbefore with hearlier | ⟨hsame, horder⟩
    · rw [← Bool.not_eq_true]
      exact fun hoverlap => hnone ⟨q, hq, hearlier, hoverlap⟩
    · refine overlaps_of_standard ((hkept q).mp hq).1 hp hsame ?_
      rintro rfl
      exact absurd horder (Nat.lt_irrefl _)
  · rintro ⟨q, hq, hearlier, hoverlap⟩ hmem
    rw [((hkept p).mp hmem).2 q hq (.inl hearlier)] at hoverlap
    cases hoverlap

theorem classifyWith_eq (rules : List Rule) (marker text : List Char) (sourceInComments : Bool) :
    classifyWith rules marker sourceInComments text = ruleSpans rules (code marker text) ++
      ((commentStart? marker text).map (commentSpans marker text sourceInComments)).getD [] := by
  unfold classifyWith code
  cases commentStart? marker text with
  | none => exact (List.append_nil _).symm
  | some start => rfl

/-- Earlier proposals win. There is one set of the proposals for the code of a line in which a proposal is kept
exactly if it overlaps no kept one before it. The regions of the line in front of its comment are those of this set,
from left to right. The proposals of one built-in rule never overlap, so for the built-in rules only a kept proposal
of an earlier rule makes one be dropped. -/
theorem classifyWith_resolves (rules : List Rule) (marker text : List Char) (sourceInComments : Bool) :
    (∃! kept, Resolves rules (code marker text) kept) ∧
      ∀ kept, Resolves rules (code marker text) kept →
        (∃ (won : List Proposal) (spans : List Span), won.Nodup ∧ (∀ p, p ∈ won ↔ p ∈ kept) ∧
          spans.Perm (won.map (·.span)) ∧ (spans.Pairwise fun a b => a.start ≤ b.start) ∧
          classifyWith rules marker sourceInComments text = spans ++
            ((commentStart? marker text).map (commentSpans marker text sourceInComments)).getD []) ∧
        (rules = Rule.standard →
          (∀ p q : Proposal, p.Of rules (code marker text) → q.Of rules (code marker text) → p.rule = q.rule →
            p ≠ q → p.overlaps q = false) ∧
          ∀ p : Proposal, p.Of rules (code marker text) →
            (p ∉ kept ↔ ∃ q ∈ kept, q.rule < p.rule ∧ q.overlaps p = true)) := by
  refine ⟨⟨{ p | p ∈ chosen rules (code marker text) }, resolves_iff.mpr fun _ => Iff.rfl, fun kept hkept => ?_⟩,
    fun kept hkept => ⟨?_, ?_⟩⟩
  · exact Set.ext (resolves_iff.mp hkept)
  · have hordered := (chosen_settles rules (code marker text)).ordered
    have hnodup : (chosen rules (code marker text)).Nodup :=
      hordered.imp fun hbefore heq => (heq ▸ hbefore).asymm (heq ▸ hbefore)
    refine ⟨_, ruleSpans rules (code marker text), hnodup, fun p => (resolves_iff.mp hkept p).symm, ?_, ?_, ?_⟩
    · rw [map_span_chosen]
      exact List.mergeSort_perm _ _
    · exact ruleSpans_sorted rules _
    · exact classifyWith_eq rules marker text sourceInComments
  · rintro rfl
    exact ⟨fun p q => overlaps_of_standard, fun p => hkept.not_mem_iff_of_standard⟩

/-- Two operand bytes that share a bar: the first one has to go without it. -/
def sharedBar : List Char := ['6', '4', '|', '0', '0', ' ', '#']

theorem classifyWith_resolves_sharedBar :
    ∃ kept, Resolves Rule.standard (code ['#'] sharedBar) kept ∧
      (⟨5, 0, ⟨0, 3, .operandByte⟩⟩ : Proposal).Of Rule.standard (code ['#'] sharedBar) ∧
      ∃ q ∈ kept, q.rule < 5 ∧ q.overlaps ⟨5, 0, ⟨0, 3, .operandByte⟩⟩ = true := by
  obtain ⟨⟨kept, hkept, -⟩, hall⟩ := classifyWith_resolves Rule.standard ['#'] sharedBar false
  have hproposed : (⟨5, 0, ⟨0, 3, .operandByte⟩⟩ : Proposal).Of Rule.standard (code ['#'] sharedBar) :=
    ⟨Rule.byteBeforeBar, (0, 3), rfl, by decide, rfl⟩
  have hdropped : (⟨5, 0, ⟨0, 3, .operandByte⟩⟩ : Proposal) ∉ chosen Rule.standard (code ['#'] sharedBar) := by
    decide +kernel
  rw [← resolves_iff.mp hkept] at hdropped
  exact ⟨kept, hkept, hproposed, (((hall kept hkept).2 rfl).2 _ hproposed).mp hdropped⟩

end ListingEditor.Listing
