import ListingEditor.Proofs.Listing.Structure

/-!
What a scan of a line from left to right finds. Its finds never overlap, and a scan by a recognizer that
recognizes nothing inside what it has recognized misses nothing.
-/

namespace ListingEditor.Listing

/-- The character before a place of a text; `previous` is the one before the text itself. -/
def charBefore (previous : Option Char) (text : List Char) : Nat → Option Char
  | 0 => previous
  | i + 1 => text[i]?

@[simp] theorem charBefore_cons_succ (previous : Option Char) (c : Char) (text : List Char) (i : Nat) :
    charBefore previous (c :: text) (i + 1) = charBefore (some c) text i := by
  cases i <;> simp [charBefore]

/-- What a recognizer recognizes at a place of a text. -/
def Recognizer.atPlace (recognize : Recognizer) (text : List Char) (place : Nat) : Option Nat :=
  recognize (charBefore none text place) (text.drop place)

/-- A recognizer that recognizes nothing at a place inside what it has recognized. -/
def Recognizer.Unnested (recognize : Recognizer) : Prop :=
  ∀ previous text n i, recognize previous text = some n → 0 < i → i < n →
    recognize (charBefore previous text i) (text.drop i) = none

/-- A recognizer that recognizes only texts that are there and are not empty. -/
def Recognizer.Bounded (recognize : Recognizer) : Prop :=
  ∀ previous text n, recognize previous text = some n → 0 < n ∧ n ≤ text.length

/-- Everything that a scan finds has been recognized behind the characters that were to be skipped. -/
theorem recognized_of_mem_scanFrom {recognize : Recognizer} {skip offset : Nat}
    {previous : Option Char} {text : List Char} {found : Nat × Nat}
    (hfound : found ∈ scanFrom recognize skip previous offset text) :
    ∃ i n, skip ≤ i ∧ i < text.length ∧ found = (offset + i, offset + i + n) ∧
      recognize (charBefore previous text i) (text.drop i) = some n := by
  induction text generalizing skip previous offset with
  | nil => cases hfound
  | cons c text ih =>
    have later {skip' : Nat} (hskip : skip ≤ skip' + 1)
        (htail : found ∈ scanFrom recognize skip' (some c) (offset + 1) text) :
        ∃ i n, skip ≤ i ∧ i < (c :: text).length ∧ found = (offset + i, offset + i + n) ∧
          recognize (charBefore previous (c :: text) i) ((c :: text).drop i) = some n := by
      obtain ⟨i, n, hle, hinside, heq, hrecognized⟩ := ih htail
      refine ⟨i + 1, n, by omega, by simpa using hinside, ?_, by simpa using hrecognized⟩
      rw [heq]
      simp only [Prod.mk.injEq]
      omega
    rw [scanFrom] at hfound
    split at hfound
    · rename_i hzero
      split at hfound
      · rename_i n hrecognized
        rcases List.mem_cons.mp hfound with rfl | htail
        · exact ⟨0, n, by omega, by simp, by simp, by simpa [charBefore] using hrecognized⟩
        · exact later (by omega) htail
      · exact later (by omega) hfound
    · exact later (by omega) hfound

/-- Nothing that an unnested recognizer recognizes is missed, unless it starts among the characters that
were to be skipped. -/
theorem mem_scanFrom_of_recognized {recognize : Recognizer} (hunnested : recognize.Unnested)
    {skip offset i n : Nat} {previous : Option Char} {text : List Char} (hskip : skip ≤ i)
    (hinside : i < text.length)
    (hrecognized : recognize (charBefore previous text i) (text.drop i) = some n) :
    (offset + i, offset + i + n) ∈ scanFrom recognize skip previous offset text := by
  induction text generalizing skip previous offset i with
  | nil => cases hinside
  | cons c text ih =>
    rw [scanFrom]
    cases i with
    | zero =>
      have hhere : recognize previous (c :: text) = some n := by
        simpa [charBefore] using hrecognized
      rw [if_pos (by omega), hhere]
      simp
    | succ i =>
      have later {skip' : Nat} (hle : skip' ≤ i) :
          (offset + (i + 1), offset + (i + 1) + n) ∈
            scanFrom recognize skip' (some c) (offset + 1) text := by
        have hmem : (offset + 1 + i, offset + 1 + i + n) ∈
            scanFrom recognize skip' (some c) (offset + 1) text :=
          ih hle (by simpa using hinside) (by simpa using hrecognized)
        rwa [show offset + 1 + i = offset + (i + 1) by omega] at hmem
      split
      · split
        · rename_i m hhere
          -- the next place lies behind what is recognized here, for inside it nothing would be
          have hbehind : m ≤ i + 1 := by
            by_contra hnot
            have hnone := hunnested previous (c :: text) m (i + 1) hhere (by omega) (by omega)
            rw [hrecognized] at hnone
            cases hnone
          exact List.mem_cons_of_mem _ (later (by omega))
        · exact later (by omega)
      · exact later (by omega)

/-- A scan by an unnested recognizer finds exactly what the recognizer recognizes at some place. -/
theorem mem_scan_iff {recognize : Recognizer} (hunnested : recognize.Unnested) {text : List Char}
    {start stop : Nat} :
    (start, stop) ∈ scan recognize text ↔
      start < text.length ∧ start ≤ stop ∧ recognize.atPlace text start = some (stop - start) := by
  constructor
  · intro hfound
    obtain ⟨i, n, _, hinside, heq, hrecognized⟩ := recognized_of_mem_scanFrom hfound
    simp only [Prod.mk.injEq] at heq
    obtain ⟨rfl, rfl⟩ := heq
    refine ⟨by omega, by omega, ?_⟩
    simpa [Recognizer.atPlace] using hrecognized
  · rintro ⟨hinside, hle, hrecognized⟩
    have hmem : (0 + start, 0 + start + (stop - start)) ∈ scanFrom recognize 0 none 0 text :=
      mem_scanFrom_of_recognized hunnested (Nat.zero_le start) hinside hrecognized
    rwa [show 0 + start + (stop - start) = stop by omega, Nat.zero_add] at hmem

/-- The finds of a scan stand one behind the other. -/
theorem scanFrom_pairwise (recognize : Recognizer) (skip : Nat) (previous : Option Char) (offset : Nat)
    (text : List Char) :
    (scanFrom recognize skip previous offset text).Pairwise fun c d => c.2 ≤ d.1 := by
  induction text generalizing skip previous offset with
  | nil => exact .nil
  | cons c text ih =>
    rw [scanFrom]
    split
    · split
      · rename_i n _
        refine List.pairwise_cons.mpr ⟨?_, ih ..⟩
        intro found hfound
        obtain ⟨i, _, hskip, _, rfl, _⟩ := recognized_of_mem_scanFrom hfound
        simp only
        omega
      · exact ih ..
    · exact ih ..

/-- What a scan finds is never empty and lies inside the text. -/
theorem scan_inRange {recognize : Recognizer} (hbounded : recognize.Bounded) {text : List Char}
    {found : Nat × Nat} (hfound : found ∈ scan recognize text) :
    found.1 < found.2 ∧ found.2 ≤ text.length := by
  obtain ⟨i, n, _, hinside, rfl, hrecognized⟩ := recognized_of_mem_scanFrom hfound
  obtain ⟨hpos, hle⟩ := hbounded _ _ _ hrecognized
  rw [List.length_drop] at hle
  simp only
  omega

end ListingEditor.Listing
