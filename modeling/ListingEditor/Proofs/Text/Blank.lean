import ListingEditor.Text.Lines
import ListingEditor.Text.Slice
import Mathlib.Data.List.Basic
import Mathlib.Data.List.Induction
import Mathlib.Data.List.TakeWhile

/-!
Blanks and the text between them. Taking blanks out or putting blanks in does not touch what is left of a text
without its blanks.
-/

namespace ListingEditor.Text

/-- A text without its blanks. -/
def nonblank (text : List Char) : List Char := text.filter fun c => !isBlank c

/-- Text made of blanks only, the empty text included. -/
def AllBlank (text : List Char) : Prop := ∀ c ∈ text, isBlank c = true

@[simp] theorem nonblank_append (front rear : List Char) :
    nonblank (front ++ rear) = nonblank front ++ nonblank rear := List.filter_append ..

theorem AllBlank.nonblank_eq_nil {text : List Char} (hblank : AllBlank text) : nonblank text = [] := by
  apply List.filter_eq_nil_iff.mpr
  intro c hc
  simp [hblank c hc]

theorem AllBlank.of_append {front rear : List Char} (hblank : AllBlank (front ++ rear)) :
    AllBlank front ∧ AllBlank rear :=
  ⟨fun c hc => hblank c (List.mem_append_left rear hc), fun c hc => hblank c (List.mem_append_right front hc)⟩

theorem AllBlank.append {front rear : List Char} (hfront : AllBlank front) (hrear : AllBlank rear) :
    AllBlank (front ++ rear) := by
  intro c hc
  exact (List.mem_append.mp hc).elim (hfront c) (hrear c)

theorem takeWhile_allBlank (text : List Char) : AllBlank (text.takeWhile isBlank) := by
  intro c hc
  exact List.mem_takeWhile_imp hc

theorem isReturn_eq_false_of_isBlank {c : Char} (hblank : isBlank c = true) : isReturn c = false := by
  simp only [isBlank, Bool.or_eq_true, beq_iff_eq] at hblank
  rcases hblank with rfl | rfl <;> rfl

/-- A text is what is left of it without the characters of a kind at its end, and then those characters. -/
theorem exists_eq_trimEnd_append (kind : Char → Bool) (text : List Char) :
    ∃ tail, text = trimEnd kind text ++ tail ∧ ∀ c ∈ tail, kind c = true := by
  refine ⟨(text.reverse.takeWhile kind).reverse, ?_, ?_⟩
  · rw [trimEnd, ← List.reverse_append, List.takeWhile_append_dropWhile, List.reverse_reverse]
  · intro c hc
    exact List.mem_takeWhile_imp (List.mem_reverse.mp hc)

theorem trimEnd_append {kind : Char → Bool} {text tail : List Char}
    (htext : ∀ c ∈ text, kind c = false) (htail : ∀ c ∈ tail, kind c = true) :
    trimEnd kind (text ++ tail) = text := by
  have hrest : text.reverse.dropWhile kind = text.reverse := by
    rw [List.dropWhile_eq_self_iff]
    intro hpositive
    have hlast := htext _ (List.mem_reverse.mp (List.getElem_mem hpositive))
    simp only [hlast, Bool.false_eq_true, not_false_eq_true]
  rw [trimEnd, List.reverse_append, List.dropWhile_append_of_pos (by simpa using htail), hrest,
    List.reverse_reverse]

theorem trimStart_eq_self {kind : Char → Bool} {text : List Char}
    (hhead : ∀ c, text.head? = some c → kind c = false) : trimStart kind text = text := by
  cases text with
  | nil => rfl
  | cons c text => rw [trimStart, List.dropWhile_cons_of_neg (by simp [hhead c rfl])]

theorem trimEnd_eq_self {kind : Char → Bool} {text : List Char}
    (hlast : ∀ c, text.getLast? = some c → kind c = false) : trimEnd kind text = text := by
  have hreverse : trimStart kind text.reverse = text.reverse :=
    trimStart_eq_self fun c hc => hlast c (by rwa [List.head?_reverse] at hc)
  rw [trimEnd, ← trimStart, hreverse, List.reverse_reverse]

/-- Text with something other than white space at both ends. -/
structure Solid (text : List Char) : Prop where
  ne_nil : text ≠ []
  head : ∀ c, text.head? = some c → isSpace c = false
  last : ∀ c, text.getLast? = some c → isSpace c = false

theorem solid_of_forall {text : List Char} (hne : text ≠ []) (hspace : ∀ c ∈ text, isSpace c = false) :
    Solid text :=
  ⟨hne, fun c hc => hspace c (List.mem_of_mem_head? hc), fun c hc => hspace c (List.mem_of_getLast? hc)⟩

theorem trimEnd_concat {kind : Char → Bool} {c : Char} (text : List Char) (hc : kind c = true) :
    trimEnd kind (text ++ [c]) = trimEnd kind text := by
  rw [trimEnd, List.reverse_append, List.reverse_singleton, List.singleton_append,
    List.dropWhile_cons_of_pos hc, trimEnd]

/-- White space in front of a text is trimmed. -/
theorem trim_cons {c : Char} (hc : isSpace c = true) (text : List Char) : trim (c :: text) = trim text := by
  rw [trim, trimStart, List.dropWhile_cons_of_pos hc, trim, trimStart]

/-- White space behind a text is trimmed. -/
theorem trim_concat {c : Char} (hc : isSpace c = true) (text : List Char) : trim (text ++ [c]) = trim text := by
  rw [trim, trim, trimStart, trimStart, List.dropWhile_append]
  split
  · rename_i hempty
    rw [List.isEmpty_iff.mp hempty, List.dropWhile_cons_of_pos hc, List.dropWhile_nil]
  · exact trimEnd_concat _ hc

theorem trimEnd_cons (kind : Char → Bool) (c : Char) (text : List Char) :
    trimEnd kind (c :: text) = if (c :: text).all kind then [] else c :: trimEnd kind text := by
  rw [trimEnd, trimEnd, List.reverse_cons, List.dropWhile_append]
  by_cases hall : text.all kind = true
  · have hnone : text.reverse.dropWhile kind = [] := by
      rw [List.dropWhile_eq_nil_iff]
      simpa using hall
    rw [hnone, List.isEmpty_nil, if_pos rfl, List.all_cons, hall, Bool.and_true]
    cases hc : kind c <;> simp [hc]
  · have hsome : (text.reverse.dropWhile kind).isEmpty = false := by
      rw [List.isEmpty_eq_false_iff, ne_eq, List.dropWhile_eq_nil_iff]
      simpa using hall
    simp [hsome, hall]

/-- What white space at the ends of a text makes no difference to is the same for the text without it. -/
theorem eq_of_trim {α : Type} {f : List Char → α} (hcons : ∀ c text, isSpace c = true → f (c :: text) = f text)
    (hconcat : ∀ c text, isSpace c = true → f (text ++ [c]) = f text) (text : List Char) : f (trim text) = f text := by
  have hstart (text : List Char) : f (trimStart isSpace text) = f text := by
    induction text with
    | nil => rfl
    | cons c text ih =>
      cases hc : isSpace c with
      | true => rw [trimStart, List.dropWhile_cons_of_pos hc, ← trimStart, ih, hcons c text hc]
      | false => rw [trimStart, List.dropWhile_cons_of_neg (by simp [hc])]
  have hend (text : List Char) : f (trimEnd isSpace text) = f text := by
    induction text using List.reverseRecOn with
    | nil => rfl
    | append_singleton text c ih =>
      cases hc : isSpace c with
      | true => rw [trimEnd_concat text hc, ih, hconcat c text hc]
      | false => rw [trimEnd_eq_self (by simpa using hc)]
  rw [trim, hend, hstart]

theorem Solid.trimEnd_eq {text : List Char} (hsolid : Solid text) : trimEnd isSpace text = text :=
  trimEnd_eq_self hsolid.last

theorem Solid.trim_eq {text : List Char} (hsolid : Solid text) : trim text = text := by
  rw [trim, trimStart_eq_self hsolid.head, hsolid.trimEnd_eq]

theorem Solid.head_append {text : List Char} (hsolid : Solid text) (rest : List Char) :
    ∀ c, (text ++ rest).head? = some c → isSpace c = false := by
  intro c hc
  rw [List.head?_append_of_ne_nil _ hsolid.ne_nil] at hc
  exact hsolid.head c hc

/-- A line is what is left of it without its line feed. -/
theorem Solid.trim_line {text : List Char} (hsolid : Solid text) : trim (text ++ ['\n']) = text := by
  rw [trim, trimStart_eq_self (hsolid.head_append _), trimEnd_concat _ rfl, hsolid.trimEnd_eq]

theorem Solid.takeWhile_append {text : List Char} (hsolid : Solid text) (rest : List Char) :
    (text ++ rest).takeWhile isSpace = [] := by
  obtain ⟨c, text, rfl⟩ := List.exists_cons_of_ne_nil hsolid.ne_nil
  exact List.takeWhile_cons_of_neg (by simp [hsolid.head c rfl])

theorem Solid.append {front rear : List Char} (hfront : Solid front) (middle : List Char)
    (hrear : Solid rear) : Solid (front ++ middle ++ rear) := by
  refine ⟨by simp [hfront.ne_nil], ?_, ?_⟩
  · rw [List.append_assoc]
    exact hfront.head_append _
  · intro c hc
    rw [List.getLast?_append_of_ne_nil _ hrear.ne_nil] at hc
    exact hrear.last c hc

theorem replaceFrom_allBlank {old new text : List Char} (skip : Nat) (hnew : AllBlank new)
    (htext : AllBlank text) : AllBlank (replaceFrom old new skip text) := by
  induction text generalizing skip with
  | nil => exact nofun
  | cons c text ih =>
    obtain ⟨hc, hrest⟩ : AllBlank [c] ∧ AllBlank text := AllBlank.of_append htext
    unfold replaceFrom
    split
    · exact ih _ hrest
    · split
      · exact hnew.append (ih _ hrest)
      · exact hc.append (ih _ hrest)

/-- Replacing leaves something of a text if it leaves something of each occurrence. -/
theorem replaceFrom_ne_nil {old new text : List Char} (hnew : new ≠ []) (htext : text ≠ []) :
    replaceFrom old new 0 text ≠ [] := by
  cases text with
  | nil => exact absurd rfl htext
  | cons c text =>
    unfold replaceFrom
    rw [if_neg (by simp)]
    split
    · simp [hnew]
    · simp

theorem replace_allBlank {new text : List Char} (old : List Char) (hnew : AllBlank new) (htext : AllBlank text) :
    AllBlank (replace old new text) := by
  unfold replace
  split
  · refine hnew.append fun c hc => ?_
    obtain ⟨d, hd, hmem⟩ := List.mem_flatMap.mp hc
    obtain rfl | hmem := List.mem_cons.mp hmem
    · exact htext c hd
    · exact hnew c hmem
  · exact replaceFrom_allBlank 0 hnew htext

theorem replace_ne_nil {new text : List Char} (old : List Char) (hnew : new ≠ []) (htext : text ≠ []) :
    replace old new text ≠ [] := by
  unfold replace
  split
  · exact List.append_ne_nil_of_left_ne_nil hnew _
  · exact replaceFrom_ne_nil hnew htext

end ListingEditor.Text
