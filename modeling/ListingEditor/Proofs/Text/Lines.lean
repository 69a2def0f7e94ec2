import ListingEditor.Text.Lines
import Mathlib.Data.List.Basic

/-!
How the lines of a text come apart: behind a return, the lines of the two parts are the lines of the whole, as
long as the cut is not between a carriage return and its line feed.
-/

namespace ListingEditor.Text

/-- A text that is empty or ends with a return. -/
def EndsLine (text : List Char) : Prop := ∀ c, text.getLast? = some c → isReturn c = true

/-- A cut between a carriage return and the line feed that belongs to it. -/
def SplitsBreak (front rear : List Char) : Prop := front.getLast? = some '\r' ∧ rear.head? = some '\n'

instance (front rear : List Char) : Decidable (SplitsBreak front rear) :=
  inferInstanceAs (Decidable (front.getLast? = some '\r' ∧ rear.head? = some '\n'))

theorem endsLine_nil : EndsLine [] := nofun

theorem endsLine_concat {text : List Char} {c : Char} (hreturn : isReturn c = true) :
    EndsLine (text ++ [c]) := by
  intro d hd
  rw [List.getLast?_concat, Option.some.injEq] at hd
  exact hd ▸ hreturn

theorem EndsLine.tail {c : Char} {text : List Char} (hends : EndsLine (c :: text)) : EndsLine text := by
  intro d hd
  exact hends d (by rw [List.getLast?_cons, hd, Option.getD_some])

theorem SplitsBreak.cons {front rear : List Char} (hsplits : SplitsBreak front rear) (c : Char) :
    SplitsBreak (c :: front) rear := by
  obtain ⟨hlast, hhead⟩ := hsplits
  cases front with
  | nil => cases hlast
  | cons d front => exact ⟨by simpa using hlast, hhead⟩

theorem SplitsBreak.append {front rear : List Char} (hsplits : SplitsBreak front rear) (text : List Char) :
    SplitsBreak (text ++ front) rear := by
  refine ⟨?_, hsplits.2⟩
  rw [List.getLast?_append, hsplits.1]
  rfl

theorem not_splitsBreak_singleton {c : Char} {rest : List Char}
    (hpair : ∀ tail, c = '\r' → rest = '\n' :: tail → False) : ¬ SplitsBreak [c] rest := by
  rintro ⟨hc, hhead⟩
  rw [List.getLast?_singleton, Option.some.injEq] at hc
  obtain ⟨tail, rfl⟩ := List.head?_eq_some_iff.mp hhead
  exact hpair tail hc rfl

theorem not_splitsBreak_cons_append {c : Char} {rest rear : List Char}
    (hpair : ∀ tail, c = '\r' → rest = '\n' :: tail → False)
    (hsplit : ¬ SplitsBreak (c :: rest) rear) : ¬ SplitsBreak [c] (rest ++ rear) := by
  cases rest with
  | nil => exact hsplit
  | cons d rest =>
    rintro ⟨hc, hhead⟩
    exact not_splitsBreak_singleton hpair ⟨hc, by simpa using hhead⟩

theorem isLineBreak_of_isReturn {c : Char} (hreturn : isReturn c = true) : isLineBreak c = true := by
  simp only [isReturn, Bool.or_eq_true, beq_iff_eq] at hreturn
  rcases hreturn with rfl | rfl <;> decide

theorem isReturn_eq_false_of_not_isLineBreak {c : Char} (hbreak : isLineBreak c = false) :
    isReturn c = false := by
  rw [← Bool.not_eq_true]
  intro hreturn
  simp [isLineBreak_of_isReturn hreturn] at hbreak

theorem lines_cons {c : Char} {text : List Char} (hsplit : ¬ SplitsBreak [c] text) :
    lines (c :: text) =
      if isLineBreak c then [c] :: lines text
      else
        match lines text with
        | [] => [[c]]
        | l :: ls => (c :: l) :: ls := by
  have hpair : ∀ rest, c = '\r' → text = '\n' :: rest → False := by
    rintro rest rfl rfl
    exact hsplit ⟨rfl, rfl⟩
  exact lines.eq_3 c text hpair

theorem eq_nil_of_lines_eq_nil {text : List Char} (hnone : lines text = []) : text = [] := by
  have hflatten := lines_flatten text
  rw [hnone] at hflatten
  exact hflatten.symm

/-- A text that is empty or ends with a line break, which need not be a return. -/
def EndsPiece (text : List Char) : Prop := ∀ c, text.getLast? = some c → isLineBreak c = true

theorem EndsLine.endsPiece {text : List Char} (hends : EndsLine text) : EndsPiece text :=
  fun c hc => isLineBreak_of_isReturn (hends c hc)

theorem EndsPiece.tail {c : Char} {text : List Char} (hends : EndsPiece (c :: text)) : EndsPiece text := by
  intro d hd
  exact hends d (by rw [List.getLast?_cons, hd, Option.getD_some])

theorem lines_append_of_endsPiece {front rear : List Char} (hends : EndsPiece front)
    (hsplit : ¬ SplitsBreak front rear) : lines (front ++ rear) = lines front ++ lines rear := by
  fun_induction lines front with
  | case1 => rfl
  | case2 rest ih =>
    have hrest : ¬ SplitsBreak rest rear := fun h => hsplit ((h.cons _).cons _)
    rw [List.cons_append, List.cons_append, lines, ih hends.tail.tail hrest, List.cons_append]
  | case3 c rest hpair hbreak ih =>
    have hrest : ¬ SplitsBreak rest rear := fun h => hsplit (h.cons _)
    have hfirst := not_splitsBreak_cons_append hpair hsplit
    rw [List.cons_append, lines_cons hfirst, if_pos hbreak, ih hends.tail hrest, List.cons_append]
  | case4 c rest hpair hbreak hnone =>
    have hempty := eq_nil_of_lines_eq_nil hnone
    subst hempty
    exact absurd (hends c rfl) hbreak
  | case5 c rest hpair hbreak l ls hsome ih =>
    have hrest : ¬ SplitsBreak rest rear := fun h => hsplit (h.cons _)
    have hfirst := not_splitsBreak_cons_append hpair hsplit
    rw [List.cons_append, lines_cons hfirst, if_neg hbreak, ih hends.tail hrest, hsome]
    rfl

theorem lines_append {front rear : List Char} (hends : EndsLine front)
    (hsplit : ¬ SplitsBreak front rear) : lines (front ++ rear) = lines front ++ lines rear :=
  lines_append_of_endsPiece hends.endsPiece hsplit

/-- A line whose returns all stand at its end. -/
def ReturnsLast (line : List Char) : Prop :=
  ∃ body returns, line = body ++ returns ∧ (∀ c ∈ body, isReturn c = false) ∧ ∀ c ∈ returns, isReturn c = true

theorem returnsLast_of_mem_lines {text line : List Char} (hmem : line ∈ lines text) : ReturnsLast line := by
  fun_induction lines text generalizing line with
  | case1 => cases hmem
  | case2 rest ih =>
    obtain rfl | hrest := List.mem_cons.mp hmem
    · exact ⟨[], ['\r', '\n'], rfl, List.forall_mem_nil _, by simp [isReturn]⟩
    · exact ih hrest
  | case3 c rest hpair hbreak ih =>
    obtain rfl | hrest := List.mem_cons.mp hmem
    · cases hc : isReturn c with
      | true => exact ⟨[], [c], rfl, List.forall_mem_nil _, by simpa using hc⟩
      | false => exact ⟨[c], [], rfl, by simpa using hc, List.forall_mem_nil _⟩
    · exact ih hrest
  | case4 c rest hpair hbreak hnone =>
    obtain rfl := List.mem_singleton.mp hmem
    have hc := isReturn_eq_false_of_not_isLineBreak (Bool.eq_false_iff.mpr hbreak)
    exact ⟨[c], [], rfl, by simpa using hc, List.forall_mem_nil _⟩
  | case5 c rest hpair hbreak l ls hsome ih =>
    rw [hsome] at ih
    obtain rfl | hrest := List.mem_cons.mp hmem
    · obtain ⟨body, returns, rfl, hbody, hreturns⟩ := ih List.mem_cons_self
      have hc := isReturn_eq_false_of_not_isLineBreak (Bool.eq_false_iff.mpr hbreak)
      exact ⟨c :: body, returns, rfl, List.forall_mem_cons.mpr ⟨hc, hbody⟩, hreturns⟩
    · exact ih (List.mem_cons_of_mem _ hrest)

/-- A line feed behind a carriage return at the end of a text belongs to the last line. -/
theorem lines_append_feed (text : List Char) :
    ∃ front last, lines (text ++ ['\r']) = front ++ [last ++ ['\r']] ∧
      lines (text ++ ['\r', '\n']) = front ++ [last ++ ['\r', '\n']] := by
  fun_induction lines text with
  | case1 => exact ⟨[], [], rfl, rfl⟩
  | case2 rest ih =>
    obtain ⟨front, last, hreturn, hfeed⟩ := ih
    refine ⟨['\r', '\n'] :: front, last, ?_, ?_⟩
    · rw [List.cons_append, List.cons_append, lines, hreturn, List.cons_append]
    · rw [List.cons_append, List.cons_append, lines, hfeed, List.cons_append]
  | case3 c rest hpair hbreak ih =>
    obtain ⟨front, last, hreturn, hfeed⟩ := ih
    have hfirst (rear : List Char) : ¬ SplitsBreak [c] (rest ++ '\r' :: rear) :=
      not_splitsBreak_cons_append hpair (by simp [SplitsBreak])
    refine ⟨[c] :: front, last, ?_, ?_⟩
    · rw [List.cons_append, lines_cons (hfirst []), if_pos hbreak, hreturn, List.cons_append]
    · rw [List.cons_append, lines_cons (hfirst ['\n']), if_pos hbreak, hfeed, List.cons_append]
  | case4 c rest hpair hbreak hnone | case5 c rest hpair hbreak l ls hsome =>
    rename_i ih
    obtain ⟨front, last, hreturn, hfeed⟩ := ih
    have hfirst (rear : List Char) : ¬ SplitsBreak [c] (rest ++ '\r' :: rear) :=
      not_splitsBreak_cons_append hpair (by simp [SplitsBreak])
    rw [List.cons_append, List.cons_append, lines_cons (hfirst []), lines_cons (hfirst ['\n']),
      if_neg hbreak, if_neg hbreak, hreturn, hfeed]
    cases front with
    | nil => exact ⟨[], c :: last, rfl, rfl⟩
    | cons l ls => exact ⟨(c :: l) :: ls, last, rfl, rfl⟩

theorem lines_cons_of_not_isLineBreak {c : Char} {text : List Char} (hbreak : isLineBreak c = false) :
    lines (c :: text) =
      match lines text with
      | [] => [[c]]
      | l :: ls => (c :: l) :: ls := by
  have hsplit : ¬ SplitsBreak [c] text := by
    rintro ⟨hlast, _⟩
    simp only [List.getLast?_singleton, Option.some.injEq] at hlast
    simp [hlast, isLineBreak] at hbreak
  rw [lines_cons hsplit, if_neg (by simp [hbreak])]

/-- Text without a break belongs to the line that follows it. -/
theorem lines_unbroken_append {front text l : List Char} {ls : List (List Char)}
    (hfront : ∀ c ∈ front, isLineBreak c = false) (hlines : lines text = l :: ls) :
    lines (front ++ text) = (front ++ l) :: ls := by
  induction front with
  | nil => exact hlines
  | cons c front ih =>
    simp only [List.mem_cons, forall_eq_or_imp] at hfront
    rw [List.cons_append, lines_cons_of_not_isLineBreak hfront.1, ih hfront.2]
    rfl

theorem lines_append_break {front rest : List Char} {c : Char} (hfront : ∀ d ∈ front, isLineBreak d = false)
    (hbreak : isLineBreak c = true) (hsplit : ¬ SplitsBreak [c] rest) :
    lines (front ++ c :: rest) = (front ++ [c]) :: lines rest := by
  apply lines_unbroken_append hfront
  rw [lines_cons hsplit, if_pos hbreak]

theorem lines_of_unbroken {text : List Char} (htext : ∀ c ∈ text, isLineBreak c = false)
    (hnonempty : text ≠ []) : lines text = [text] := by
  obtain ⟨front, last, rfl⟩ := (List.eq_nil_or_concat text).resolve_left hnonempty
  simp only [List.concat_eq_append, List.mem_append, List.mem_singleton] at htext
  rw [List.concat_eq_append]
  apply lines_unbroken_append fun c hc => htext c (.inl hc)
  rw [lines_cons_of_not_isLineBreak (htext last (.inr rfl))]
  rfl

/-- A text is one piece, or goes on behind the break that ends its first piece. -/
theorem exists_first_piece (text : List Char) :
    (∀ c ∈ text, isLineBreak c = false) ∨
      ∃ piece c rest, text = piece ++ c :: rest ∧ (∀ d ∈ piece, isLineBreak d = false) ∧
        isLineBreak c = true := by
  induction text with
  | nil => exact .inl (by simp)
  | cons c text ih =>
    cases hc : isLineBreak c with
    | true => exact .inr ⟨[], c, text, rfl, by simp, hc⟩
    | false =>
      obtain hall | ⟨piece, d, rest, rfl, hpiece, hd⟩ := ih
      · exact .inl (by simpa [hc] using hall)
      · exact .inr ⟨c :: piece, d, rest, rfl, by simpa [hc] using hpiece, hd⟩

theorem feedLines_append_feed {line : List Char} (hline : '\n' ∉ line) (rest : List Char) :
    feedLines (line ++ '\n' :: rest) = (line ++ ['\n']) :: feedLines rest := by
  induction line with
  | nil => rw [List.nil_append, feedLines, if_pos rfl, List.nil_append]
  | cons c line ih =>
    obtain ⟨hc, hrest⟩ := not_or.mp (mt List.mem_cons.mpr hline)
    rw [List.cons_append, feedLines, if_neg (Ne.symm hc), ih hrest]
    rfl

/-- Lines that are joined by line feeds, with an empty one at the end, are read one by one. -/
theorem feedLines_intercalate {lines : List (List Char)} (hlines : ∀ line ∈ lines, '\n' ∉ line) :
    feedLines (['\n'].intercalate (lines ++ [[]])) = lines.map (· ++ ['\n']) := by
  induction lines with
  | nil => rfl
  | cons line lines ih =>
    obtain ⟨hline, hrest⟩ := List.forall_mem_cons.mp hlines
    have hjoined : ['\n'].intercalate (line :: lines ++ [[]]) =
        line ++ '\n' :: ['\n'].intercalate (lines ++ [[]]) := by
      cases lines <;> simp [List.intercalate_cons_cons]
    rw [hjoined, feedLines_append_feed hline, ih hrest, List.map_cons]

end ListingEditor.Text
