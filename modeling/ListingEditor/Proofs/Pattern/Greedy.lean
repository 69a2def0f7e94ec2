import ListingEditor.Pattern.Parser
import ListingEditor.Proofs.Text.Kind

/-!
How a pattern runs where it never has to go back. A greedy run of characters is settled at once when what comes behind
it cannot start inside it: then only the longest run can lead to a match. A pattern that is tied to the start of a text
matches once at most.
-/

namespace ListingEditor.Pattern

/-- The place behind a text, of which `rest` is what follows. -/
def Cursor.past (s : Cursor) (text rest : List Char) : Cursor :=
  { s with previous := text.getLast?.or s.previous, offset := s.offset + text.length, rest }

theorem Cursor.past_nil {s : Cursor} {rest : List Char} (hrest : s.rest = rest) : s.past [] rest = s := by
  subst hrest
  rfl

theorem Cursor.next_eq_past (s : Cursor) (c : Char) (rest : List Char) : s.next c rest = s.past [c] rest := rfl

theorem Cursor.past_past (s : Cursor) (first second middle rest : List Char) :
    (s.past first middle).past second rest = s.past (first ++ second) rest := by
  simp only [past, List.getLast?_append, List.length_append, Nat.add_assoc, Option.or_assoc]

/-- A character of a kind stands before the place behind a run of the kind, unless the run is empty and none stands
before it. -/
theorem any_previous_past {kind : Char → Bool} {s : Cursor} {front : List Char}
    (hprevious : front = [] → s.previous.any kind = true) (hfront : ∀ c ∈ front, kind c = true) (rest : List Char) :
    (s.past front rest).previous.any kind = true := by
  change (front.getLast?.or s.previous).any kind = true
  cases hlast : front.getLast? with
  | none => exact hprevious (List.getLast?_eq_none_iff.mp hlast)
  | some c => exact hfront c (List.mem_of_getLast? hlast)

/-- Inside a word no word starts or ends. -/
theorem atWordEdge_of_word {s : Cursor} (hprevious : s.previous.any Text.isWord = true) :
    s.atWordEdge false = !s.rest.head?.any Text.isWord := by
  obtain ⟨c, hc⟩ := Option.isSome_iff_exists.mp (Option.isSome_of_any hprevious)
  rw [Cursor.atWordEdge, hprevious, hc]
  cases s.rest.head?.any Text.isWord <;> rfl

/-- What has to match behind a run of certain characters does not match inside the run, where the next character is one
of them too. -/
def Settled (kind : Char → Bool) (s : Cursor) (k : Cursor → Option Cursor) : Prop :=
  ∀ front c rear, s.rest = front ++ c :: rear → (∀ d ∈ front, kind d = true) → kind c = true →
    k (s.past front (c :: rear)) = none

theorem Settled.next {kind : Char → Bool} {s : Cursor} {k : Cursor → Option Cursor} {c : Char} {rest : List Char}
    (hsettled : Settled kind s k) (hrest : s.rest = c :: rest) (hkind : kind c = true) :
    Settled kind (s.next c rest) k := by
  intro front d rear hsplit hfront hd
  have hbehind := hsettled (c :: front) d rear (by rw [hrest]; exact congrArg (c :: ·) hsplit)
    (List.forall_mem_cons.mpr ⟨hkind, hfront⟩) hd
  rwa [s.next_eq_past, s.past_past]

variable {cls : CharClass} {anyCase : Bool} {k : Cursor → Option Cursor}

theorem run_one_cons {s : Cursor} {c : Char} {rest : List Char} (hrest : s.rest = c :: rest) :
    (Node.one cls).run anyCase s k = if cls.holds anyCase c then k (s.next c rest) else none := by
  rw [Node.run, hrest]

theorem run_one_nil {s : Cursor} (hrest : s.rest = []) : (Node.one cls).run anyCase s k = none := by
  rw [Node.run, hrest]

/-- The longest run of characters is the only one that can lead to a match. -/
theorem upTo_one {s : Cursor} {count : Nat} {last : Option Nat} (hsettled : Settled (cls.holds anyCase) s k)
    (hcount : s.rest.length < count) (hlast : ∀ place ∈ last, place < s.offset) :
    Matcher.upTo ((Node.one cls).run anyCase) true count last s k =
      k (s.past (s.rest.takeWhile (cls.holds anyCase)) (s.rest.dropWhile (cls.holds anyCase))) := by
  induction count generalizing s last with
  | zero => omega
  | succ count ih =>
    have hmoved : last ≠ some s.offset := fun hsame => Nat.lt_irrefl _ (hlast _ hsame)
    rw [Matcher.upTo, if_neg hmoved]
    simp only [if_true]
    cases hrest : s.rest with
    | nil =>
      rw [run_one_nil hrest, Option.none_or, List.takeWhile_nil, List.dropWhile_nil, Cursor.past_nil hrest]
    | cons c rest =>
      rw [run_one_cons hrest]
      by_cases hkind : cls.holds anyCase c = true
      · have hnone : k s = none := hsettled [] c rest hrest nofun hkind ▸ hrest ▸ rfl
        have hshorter : (s.next c rest).rest.length < count := by
          rw [hrest, List.length_cons] at hcount
          exact Nat.lt_of_succ_lt_succ hcount
        rw [if_pos hkind, ih (hsettled.next hrest hkind) hshorter fun place hplace => by
          cases hplace
          exact Nat.lt_succ_self _]
        rw [hnone, Option.or_none, List.takeWhile_cons_of_pos hkind, List.dropWhile_cons_of_pos hkind, s.next_eq_past,
          s.past_past]
        rfl
      · rw [if_neg hkind, Option.none_or, List.takeWhile_cons_of_neg hkind, List.dropWhile_cons_of_neg hkind,
          Cursor.past_nil hrest]

theorem upTo_one_fresh {s : Cursor} (hsettled : Settled (cls.holds anyCase) s k) :
    Matcher.upTo ((Node.one cls).run anyCase) true (s.rest.length + 2) none s k =
      k (s.past (s.rest.takeWhile (cls.holds anyCase)) (s.rest.dropWhile (cls.holds anyCase))) :=
  upTo_one hsettled (by omega) nofun

/-- A run that may be empty. -/
theorem run_star {s : Cursor} (hsettled : Settled (cls.holds anyCase) s k) :
    (Node.loop (.one cls) 0 none .greedy).run anyCase s k =
      k (s.past (s.rest.takeWhile (cls.holds anyCase)) (s.rest.dropWhile (cls.holds anyCase))) := by
  rw [Node.run]
  exact upTo_one_fresh hsettled

/-- A run that has to have one character at least. -/
theorem run_plus {s : Cursor}
    (hsettled : ∀ c rest, s.rest = c :: rest → cls.holds anyCase c = true →
      Settled (cls.holds anyCase) (s.next c rest) k) :
    (Node.loop (.one cls) 1 none .greedy).run anyCase s k =
      if s.rest.takeWhile (cls.holds anyCase) = [] then none
      else k (s.past (s.rest.takeWhile (cls.holds anyCase)) (s.rest.dropWhile (cls.holds anyCase))) := by
  rw [Node.run]
  change (Node.one cls).run anyCase s (fun t =>
    Matcher.upTo ((Node.one cls).run anyCase) true (t.rest.length + 2) none t k) = _
  cases hrest : s.rest with
  | nil => rw [run_one_nil hrest, List.takeWhile_nil, if_pos rfl]
  | cons c rest =>
    rw [run_one_cons hrest]
    by_cases hkind : cls.holds anyCase c = true
    · rw [if_pos hkind, upTo_one_fresh (hsettled c rest hrest hkind), List.takeWhile_cons_of_pos hkind,
        List.dropWhile_cons_of_pos hkind, if_neg (List.cons_ne_nil _ _), s.next_eq_past, s.past_past]
      rfl
    · rw [if_neg hkind, List.takeWhile_cons_of_neg hkind, if_pos rfl]

/-- What may be left out is left out only if what follows does not match behind it. -/
theorem run_optional (body : Node) (s : Cursor) :
    (Node.loop body 0 (some 1) .greedy).run anyCase s k = (body.run anyCase s k).or (k s) := by
  have hextra : min (1 - 0) (s.rest.length + 2) = 1 := by omega
  rw [Node.run]
  change Matcher.upTo (body.run anyCase) true (min (1 - 0) (s.rest.length + 2)) none s k = _
  rw [hextra]
  rfl

theorem run_twice (body : Node) (s : Cursor) :
    (Node.loop body 2 (some 2) .greedy).run anyCase s k = body.run anyCase s fun t => body.run anyCase t k := by
  have hextra (t : Cursor) : min (2 - 2) (t.rest.length + 2) = 0 := Nat.zero_min _
  rw [Node.run]
  change (body.run anyCase s fun t => body.run anyCase t fun u =>
    Matcher.upTo (body.run anyCase) true (min (2 - 2) (u.rest.length + 2)) none u k) = _
  simp only [hextra]
  rfl

theorem single_holds (d : Char) : (CharClass.single d).holds false = (· == d) := by
  funext c
  simp [CharClass.holds, CharClass.single, ClassItem.holds]

/-- Text that a pattern has letter for letter. -/
def literal (text : List Char) : List Node := text.map fun c => .one (.single c)

/-- A text that starts with the letters of a pattern goes on behind them. -/
theorem run_literal (text : List Char) (parts : List Node) (s : Cursor) :
    (Node.sequence (literal text ++ parts)).run false s k =
      if text.isPrefixOf s.rest then
        (Node.sequence parts).run false (s.past text (s.rest.drop text.length)) k
      else none := by
  induction text generalizing s with
  | nil => rfl
  | cons c text ih =>
    change (Node.one (.single c)).run false s (fun t => (Node.sequence (literal text ++ parts)).run false t k) = _
    cases hrest : s.rest with
    | nil => exact run_one_nil hrest
    | cons d rest =>
      rw [run_one_cons hrest, single_holds, ih, List.isPrefixOf_cons_cons]
      by_cases hsame : d = c
      · subst hsame
        simp only [beq_self_eq_true, if_true, Bool.true_and, s.next_eq_past, s.past_past]
        rfl
      · rw [if_neg (by simpa using hsame), beq_false_of_ne (Ne.symm hsame), Bool.false_and, if_neg Bool.false_ne_true]

/-- A pattern that ends with a character. -/
theorem run_last (c : Char) (s : Cursor) :
    (Node.sequence (literal [c])).run false s some =
      if s.rest.head? = some c then some (s.past [c] s.rest.tail) else none := by
  rw [← List.append_nil (literal [c]), run_literal]
  cases hrest : s.rest with
  | nil => rfl
  | cons d rest =>
    by_cases hsame : d = c
    · subst hsame
      simp only [List.isPrefixOf_cons_cons, beq_self_eq_true, List.isPrefixOf_nil_left, Bool.and_self, if_true,
        List.head?_cons, List.tail_cons]
      rfl
    · have hother : ¬ some d = some c := fun h => hsame (Option.some.inj h)
      simp [List.isPrefixOf_cons_cons, Ne.symm hsame, hother]

/-- A pattern that ends with a run of characters and one that is not of their kind. What is noted in between does not
touch the text. -/
theorem run_plus_last {d : Char} (hother : cls.holds false d = false) {note : Cursor → Cursor}
    (hnote : ∀ t, (note t).rest = t.rest) (s : Cursor) {n : Nat}
    (hn : (s.rest.takeWhile (cls.holds false)).length = n) :
    (Node.loop (.one cls) 1 none .greedy).run false s
        (fun t => (Node.sequence (literal [d])).run false (note t) some) =
      if 0 < n ∧ (s.rest.drop n).head? = some d then
        some ((note (s.past (s.rest.takeWhile (cls.holds false)) (s.rest.drop n))).past [d] (s.rest.drop n).tail)
      else none := by
  have hsettled (t : Cursor) :
      Settled (cls.holds false) t fun t => (Node.sequence (literal [d])).run false (note t) some := by
    intro front c rear _ _ hkind
    have hne : ¬ (note (t.past front (c :: rear))).rest.head? = some d := by
      rw [hnote]
      rintro hsame
      obtain rfl : c = d := Option.some.inj hsame
      rw [hother] at hkind
      cases hkind
    exact (run_last d _).trans (if_neg hne)
  subst hn
  rw [run_plus fun c rest _ _ => hsettled _, run_last, hnote, Text.drop_length_takeWhile]
  by_cases hnone : s.rest.takeWhile (cls.holds false) = []
  · have hzero : ¬ 0 < (s.rest.takeWhile (cls.holds false)).length :=
      Nat.not_lt.mpr (Nat.le_of_eq (List.length_eq_zero_iff.mpr hnone))
    rw [if_pos hnone, if_neg fun hboth => hzero hboth.1]
  · have hpositive : 0 < (s.rest.takeWhile (cls.holds false)).length := List.length_pos_iff.mpr hnone
    rw [if_neg hnone]
    simp only [hpositive, true_and]
    rfl

theorem matchAt?_stop (p : Pattern) (previous : Option Char) (offset : Nat) (text : List Char) :
    (p.matchAt? false previous offset text).map (·.stop) =
      (p.node.run p.anyCase ⟨previous, offset, text, []⟩ some).map (·.offset) := by
  rw [matchAt?, Option.map_map]
  rfl

theorem start_of_matchAt? {p : Pattern} {nonempty : Bool} {previous : Option Char} {offset : Nat} {text : List Char}
    {found : Found} (hfound : p.matchAt? nonempty previous offset text = some found) : found.start = offset := by
  obtain ⟨t, -, rfl⟩ := Option.map_eq_some_iff.mp hfound
  rfl

/-- A match that is not empty is the only one at its place. -/
theorem matchesAt_of_some {p : Pattern} {previous : Option Char} {offset : Nat} {text : List Char} {found : Found}
    (hfound : p.matchAt? false previous offset text = some found) (hstop : offset < found.stop) :
    p.matchesAt previous offset text = [found] := by
  rw [matchesAt, hfound]
  exact if_pos hstop

theorem matchesAt_of_none {p : Pattern} {previous : Option Char} {offset : Nat} {text : List Char}
    (hnone : p.matchAt? false previous offset text = none) : p.matchesAt previous offset text = [] := by
  rw [matchesAt, hnone]

section Anchored

variable {p : Pattern} (hinside : ∀ c offset text, p.matchAt? false (some c) offset text = none)
include hinside

theorem findAllFrom_anchored (skip : Nat) (c : Char) (offset : Nat) (text : List Char) :
    p.findAllFrom skip (some c) offset text = [] := by
  induction text generalizing skip c offset with
  | nil => rw [findAllFrom, matchesAt_of_none (hinside ..), ite_self]
  | cons d text ih =>
    rw [findAllFrom, matchesAt_of_none (hinside ..)]
    split <;> exact ih ..

/-- A pattern that matches nowhere but at the start of a text is not looked for anywhere else. -/
theorem findAll_anchored (text : List Char) : p.findAll text = p.matchesAt none 0 text := by
  cases text with
  | nil => rfl
  | cons c text =>
    change p.matchesAt none 0 (c :: text) ++ p.findAllFrom _ (some c) 1 text = _
    rw [findAllFrom_anchored hinside, List.append_nil]

end Anchored

end ListingEditor.Pattern
