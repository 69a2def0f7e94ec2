import ListingEditor.Proofs.Buffer.Indentation

/-!
A text as its rows: its lines, each with the return that ends it. The number of a line is its place among the
rows, and what is put in at the front of a row moves no text to another line.
-/

namespace ListingEditor.Buffer

open Text (SplitsBreak isReturn)

/-- Text without a return in it. -/
def Unbroken (text : List Char) : Prop := ∀ c ∈ text, isReturn c = false

instance (text : List Char) : Decidable (Unbroken text) := List.decidableBAll (isReturn · = false) text

/-- The returns that end one line. -/
inductive IsEnding : List Char → Prop where
  | pair : IsEnding ['\r', '\n']
  | single {c : Char} (hreturn : isReturn c = true) : IsEnding [c]

/-- The rows of a text. Each but the last ends with a return, and no two of them meet inside a pair of returns. -/
inductive Rows : List (List Char) → Prop where
  | last {body : List Char} (hbody : Unbroken body) : Rows [body]
  | cons {body ending : List Char} {rows : List (List Char)} (hbody : Unbroken body)
      (hending : IsEnding ending) (hwhole : ¬ SplitsBreak ending rows.flatten) (hrows : Rows rows) :
      Rows ((body ++ ending) :: rows)

/-- A row without its return. -/
def rowText (row : List Char) : List Char := row.takeWhile fun c => !isReturn c

/-- Where rows start that stand one behind the other from an offset on. -/
def rowStarts (offset : Nat) : List (List Char) → List Nat
  | [] => []
  | row :: rows => offset :: rowStarts (offset + row.length) rows

theorem Unbroken.append {front rear : List Char} (hfront : Unbroken front) (hrear : Unbroken rear) :
    Unbroken (front ++ rear) := by
  intro c hc
  exact (List.mem_append.mp hc).elim (hfront c) (hrear c)

theorem Unbroken.head?_ne_feed {text : List Char} (hunbroken : Unbroken text) : text.head? ≠ some '\n' := by
  intro hhead
  cases hunbroken '\n' (List.mem_of_mem_head? hhead)

theorem IsEnding.ne_nil {ending : List Char} (hending : IsEnding ending) : ending ≠ [] := by
  cases hending <;> exact List.cons_ne_nil _ _

theorem rowText_append {lead : List Char} (hlead : Unbroken lead) (row : List Char) :
    rowText (lead ++ row) = lead ++ rowText row :=
  List.takeWhile_append_of_pos fun c hc => by simp [hlead c hc]

theorem rowText_append_ending {body ending : List Char} (hbody : Unbroken body) (hending : IsEnding ending)
    (rest : List Char) : rowText (body ++ ending ++ rest) = body := by
  rw [List.append_assoc, rowText_append hbody]
  cases hending with
  | pair => exact List.append_nil body
  | single hreturn => simp [rowText, hreturn]

theorem rowStarts_append (offset : Nat) (front rear : List (List Char)) :
    rowStarts offset (front ++ rear) =
      rowStarts offset front ++ rowStarts (offset + front.flatten.length) rear := by
  induction front generalizing offset with
  | nil => rfl
  | cons row front ih =>
    rw [List.cons_append, rowStarts, ih, rowStarts, List.flatten_cons, List.length_append, Nat.add_assoc]
    rfl

theorem rowStarts_length (offset : Nat) (rows : List (List Char)) :
    (rowStarts offset rows).length = rows.length := by
  induction rows generalizing offset with
  | nil => rfl
  | cons row rows ih => rw [rowStarts, List.length_cons, List.length_cons, ih]

theorem le_of_mem_rowStarts {offset start : Nat} {rows : List (List Char)}
    (hmem : start ∈ rowStarts offset rows) : offset ≤ start ∧ start ≤ offset + rows.flatten.length := by
  induction rows generalizing offset with
  | nil => cases hmem
  | cons row rows ih =>
    rw [List.flatten_cons, List.length_append]
    rcases List.mem_cons.mp hmem with rfl | hlater
    · omega
    · have hbounds := ih hlater
      omega

theorem lineStartsFrom_unbroken_append {body : List Char} (hbody : Unbroken body) (offset : Nat)
    (text : List Char) :
    lineStartsFrom offset (body ++ text) = lineStartsFrom (offset + body.length) text := by
  induction body generalizing offset with
  | nil => rfl
  | cons c body ih =>
    obtain ⟨hc, hrest⟩ := List.forall_mem_cons.mp hbody
    have hsplit : ¬ SplitsBreak [c] (body ++ text) := by
      rintro ⟨hlast, -⟩
      obtain rfl : c = '\r' := by simpa using hlast
      cases hc
    rw [List.cons_append, lineStartsFrom_cons hsplit, if_neg (by simp [hc]), ih hrest, List.length_cons,
      Nat.add_right_comm, Nat.add_assoc]

theorem lineStartsFrom_ending_append {ending text : List Char} (hending : IsEnding ending)
    (hwhole : ¬ SplitsBreak ending text) (offset : Nat) :
    lineStartsFrom offset (ending ++ text) =
      (offset + ending.length) :: lineStartsFrom (offset + ending.length) text := by
  cases hending with
  | pair => rfl
  | single hreturn =>
    rw [List.singleton_append, lineStartsFrom_cons hwhole, if_pos hreturn]
    rfl

/-- Lines start where the rows start. -/
theorem Rows.lineStarts_eq {rows : List (List Char)} (hrows : Rows rows) :
    lineStarts rows.flatten = rowStarts 0 rows := by
  have hfrom (offset : Nat) : offset :: lineStartsFrom offset rows.flatten = rowStarts offset rows := by
    induction hrows generalizing offset with
    | last hbody => rw [List.flatten_cons, lineStartsFrom_unbroken_append hbody]; rfl
    | cons hbody hending hwhole hrows ih =>
      rw [List.flatten_cons, List.append_assoc, lineStartsFrom_unbroken_append hbody,
        lineStartsFrom_ending_append hending hwhole, ih, rowStarts, List.length_append, Nat.add_assoc]
  exact hfrom 0

/-- A row that is not the last one. -/
theorem Rows.uncons {row : List Char} {rows : List (List Char)} (hrows : Rows (row :: rows))
    (hne : rows ≠ []) :
    ∃ body ending, row = body ++ ending ∧ Unbroken body ∧ IsEnding ending ∧
      ¬ SplitsBreak ending rows.flatten ∧ Rows rows := by
  cases hrows with
  | last hbody => exact absurd rfl hne
  | cons hbody hending hwhole hlater => exact ⟨_, _, rfl, hbody, hending, hwhole, hlater⟩

theorem Rows.of_append {front rows : List (List Char)} (hrows : Rows (front ++ rows)) (hne : rows ≠ []) :
    Rows rows := by
  induction front with
  | nil => exact hrows
  | cons row front ih =>
    obtain ⟨body, ending, -, -, -, -, hlater⟩ := hrows.uncons (by simp [hne])
    exact ih hlater

theorem Rows.rowText_append {row : List Char} {rows : List (List Char)} (hrows : Rows (row :: rows)) :
    rowText (row ++ rows.flatten) = rowText row := by
  cases hrows with
  | last hbody => rw [List.flatten_nil, List.append_nil]
  | cons hbody hending hwhole hlater =>
    have halone := rowText_append_ending hbody hending []
    rw [List.append_nil] at halone
    rw [halone, rowText_append_ending hbody hending]

theorem Rows.cons_char {c : Char} {row : List Char} {rows : List (List Char)} (hrows : Rows (row :: rows))
    (hreturn : isReturn c = false) : Rows ((c :: row) :: rows) := by
  have hc : Unbroken [c] := by simpa [Unbroken] using hreturn
  cases hrows with
  | last hbody => exact .last (hc.append hbody)
  | cons hbody hending hwhole hlater => exact .cons (hc.append hbody) hending hwhole hlater

/-- Every text has rows. -/
theorem exists_rows (text : List Char) : ∃ rows, Rows rows ∧ text = rows.flatten := by
  induction (0 : Nat), text using lineStartsFrom.induct with
  | case1 => exact ⟨[[]], .last nofun, rfl⟩
  | case2 offset rest ih =>
    obtain ⟨rows, hrows, rfl⟩ := ih
    have hwhole : ¬ SplitsBreak ['\r', '\n'] rows.flatten := by simp [SplitsBreak]
    exact ⟨([] ++ ['\r', '\n']) :: rows, .cons nofun .pair hwhole hrows, rfl⟩
  | case3 offset c rest hpair hreturn ih =>
    obtain ⟨rows, hrows, rfl⟩ := ih
    have hwhole := Text.not_splitsBreak_singleton hpair
    exact ⟨([] ++ [c]) :: rows, .cons nofun (.single hreturn) hwhole hrows, rfl⟩
  | case4 offset c rest hpair hreturn ih =>
    obtain ⟨rows, hrows, rfl⟩ := ih
    cases rows with
    | nil => cases hrows
    | cons row rows => exact ⟨(c :: row) :: rows, hrows.cons_char (by simpa using hreturn), rfl⟩

/-- Rows can be exchanged for others at the end of a text, if those do not start with the line feed of the row
before. -/
theorem Rows.exchange_rear {front rear new : List (List Char)} (hrows : Rows (front ++ rear)) (hne : rear ≠ [])
    (hnew : Rows new) (hsplit : ¬ SplitsBreak front.flatten new.flatten) : Rows (front ++ new) := by
  induction front with
  | nil => exact hnew
  | cons first front ih =>
    rw [List.cons_append] at hrows ⊢
    obtain ⟨body, ending, rfl, hbody, hending, hwhole, hlater⟩ := hrows.uncons (by simp [hne])
    refine .cons hbody hending (fun hsplits => ?_) (ih hlater fun hsplits => hsplit (hsplits.append _))
    cases front with
    | nil =>
      apply hsplit
      rw [List.flatten_singleton]
      exact hsplits.append body
    | cons second front =>
      -- the next row is not the last one, so it is not empty and what starts it has not changed
      obtain ⟨body, ending, rfl, -, hending, -, -⟩ := hlater.uncons (by simp [hne])
      have hfirst (rest : List Char) : (body ++ ending ++ rest).head? = (body ++ ending).head? :=
        List.head?_append_of_ne_nil _ (by simp [hending.ne_nil])
      refine hwhole ⟨hsplits.1, ?_⟩
      have hhead := hsplits.2
      rw [List.cons_append, List.flatten_cons, hfirst] at hhead ⊢
      exact hhead

/-- The text without a return at the start of a row can be exchanged. -/
theorem Rows.exchange_lead {lead new rest : List Char} {rear : List (List Char)} (hlead : Unbroken lead)
    (hnew : Unbroken new) (hrows : Rows ((lead ++ rest) :: rear)) : Rows ((new ++ rest) :: rear) := by
  generalize hrow : lead ++ rest = row at hrows
  cases hrows with
  | last hbody =>
    subst hrow
    exact .last (hnew.append fun c hc => hbody c (List.mem_append_right lead hc))
  | @cons body ending _ hbody hending hwhole hlater =>
    have htext := rowText_append_ending hbody hending []
    rw [List.append_nil, ← hrow, Buffer.rowText_append hlead] at htext
    subst htext
    rw [List.append_assoc] at hrow
    rw [List.append_cancel_left hrow, ← List.append_assoc]
    exact .cons (hnew.append fun c hc => hbody c (List.mem_append_right lead hc)) hending hwhole hlater

/-- What is put in at the front of a row stays in that row. -/
theorem Rows.insert {lead row : List Char} {front rear : List (List Char)} (hlead : Unbroken lead)
    (hne : lead ≠ []) (hrows : Rows (front ++ row :: rear)) : Rows (front ++ (lead ++ row) :: rear) := by
  have hempty : Unbroken [] := nofun
  have hrow : Rows (([] ++ row) :: rear) := hrows.of_append (List.cons_ne_nil _ _)
  refine hrows.exchange_rear (List.cons_ne_nil _ _) (hrow.exchange_lead hempty hlead) fun hsplits => ?_
  have hhead := hsplits.2
  rw [List.flatten_cons, List.append_assoc, List.head?_append_of_ne_nil _ hne] at hhead
  exact hlead.head?_ne_feed hhead

theorem Rows.insert_all {lead : List Char} {front middle rear : List (List Char)} (hlead : Unbroken lead)
    (hne : lead ≠ []) (hrows : Rows (front ++ middle ++ rear)) :
    Rows (front ++ middle.map (lead ++ ·) ++ rear) := by
  induction middle generalizing front with
  | nil => exact hrows
  | cons row middle ih =>
    rw [List.append_assoc, List.cons_append] at hrows
    have hnext := hrows.insert hlead hne
    rw [← List.singleton_append, ← List.append_assoc, ← List.append_assoc] at hnext
    have hall := ih hnext
    rwa [List.append_assoc front, List.singleton_append, ← List.map_cons] at hall

variable {b : Buffer}

/-- A row that stands behind others has their count as its number. -/
theorem Rows.lineStart_eq {front rear : List (List Char)} {row : List Char}
    (hrows : Rows (front ++ row :: rear)) (htext : b.text = (front ++ row :: rear).flatten) :
    b.lineStart front.length = .ok front.flatten.length := by
  have hget : (lineStarts b.text)[front.length]? = some front.flatten.length := by
    rw [htext, hrows.lineStarts_eq, rowStarts_append, Nat.zero_add,
      List.getElem?_append_right (by rw [rowStarts_length]), rowStarts_length, Nat.sub_self]
    rfl
  rw [lineStart_natCast, hget, Option.getD_some]

theorem Rows.lineEnd_eq {front rear : List (List Char)} {row : List Char}
    (hrows : Rows (front ++ row :: rear)) (htext : b.text = (front ++ row :: rear).flatten) :
    b.lineEnd front.length = .ok (front.flatten.length + (rowText row).length) := by
  have hrest := (hrows.of_append (List.cons_ne_nil _ _)).rowText_append
  have hdrop : b.text.drop front.flatten.length = row ++ rear.flatten := by
    rw [htext, List.flatten_append, List.drop_left, List.flatten_cons]
  rw [lineEnd, hrows.lineStart_eq htext]
  change Except.ok (endOfLineAt _ _) = _
  rw [endOfLineAt, hdrop, ← hrest]
  rfl

theorem Rows.lineText_eq {rows : List (List Char)} (hrows : Rows rows) (htext : b.text = rows.flatten)
    (line : Nat) : b.lineText line = .ok ((rows[line]?.map rowText).getD []) := by
  cases hget : rows[line]? with
  | none =>
    have hstart : b.lineStart line = .ok b.text.length := by
      rw [lineStart_natCast, List.getElem?_eq_none, Option.getD_none, length]
      rw [htext, hrows.lineStarts_eq, rowStarts_length]
      exact List.getElem?_eq_none_iff.mp hget
    exact Buffer.lineText_eq (List.append_nil _).symm hstart
  | some row =>
    obtain ⟨hlt, rfl⟩ := List.getElem?_eq_some_iff.mp hget
    have hsplit : rows = rows.take line ++ rows[line] :: rows.drop (line + 1) := by
      rw [← List.drop_eq_getElem_cons hlt, List.take_append_drop]
    have hlength : (rows.take line).length = line := by rw [List.length_take]; omega
    rw [hsplit] at hrows htext
    have hstart := hrows.lineStart_eq htext
    rw [hlength] at hstart
    rw [List.flatten_append] at htext
    rw [Buffer.lineText_eq htext hstart]
    exact congrArg _ (hrows.of_append (List.cons_ne_nil _ _)).rowText_append

/-- The line that holds a place is the last row that starts at or before it. -/
theorem Rows.lineOf_of_le {front rear : List (List Char)} {row : List Char}
    (hrows : Rows (front ++ row :: rear)) (htext : b.text = (front ++ row :: rear).flatten) {place : Nat}
    (hstart : front.flatten.length ≤ place) (hstop : rear = [] ∨ place < front.flatten.length + row.length) :
    b.lineOf place = front.length := by
  have hbefore : (rowStarts 0 front).countP (fun start : Nat => (start : Int) ≤ place) = front.length := by
    rw [← rowStarts_length 0 front, List.countP_eq_length]
    intro start hmem
    have hbounds := le_of_mem_rowStarts hmem
    simp only [decide_eq_true_eq]
    omega
  have hbehind : (rowStarts (front.flatten.length + row.length) rear).countP
      (fun start : Nat => (start : Int) ≤ place) = 0 := by
    rw [List.countP_eq_zero]
    intro start hmem
    have hbounds := le_of_mem_rowStarts hmem
    obtain rfl | hlt := hstop
    · cases hmem
    · simp only [decide_eq_true_eq]
      omega
  rw [lineOf, htext, hrows.lineStarts_eq, rowStarts_append, Nat.zero_add, List.countP_append, hbefore,
    rowStarts, List.countP_cons, hbehind, if_pos (decide_eq_true (Int.ofNat_le.mpr hstart))]
  omega

theorem Rows.lineOf_eq {front rear : List (List Char)} {row : List Char}
    (hrows : Rows (front ++ row :: rear)) (htext : b.text = (front ++ row :: rear).flatten) {place : Nat}
    (hstart : front.flatten.length ≤ place) (hstop : place < front.flatten.length + row.length) :
    b.lineOf place = front.length := hrows.lineOf_of_le htext hstart (.inr hstop)

theorem Rows.lineOf_pred_lineEnd {front rear : List (List Char)} {row : List Char} {stop : Nat}
    (hrows : Rows (front ++ row :: rear)) (htext : b.text = (front ++ row :: rear).flatten)
    (hstop : b.lineEnd front.length = .ok stop) (hrow : rowText row ≠ []) :
    front.flatten.length < stop ∧ b.lineOf ((stop : Int) - 1) = front.length := by
  obtain rfl := Except.ok.inj (hstop.symm.trans (hrows.lineEnd_eq htext))
  have hpositive : 0 < (rowText row).length := List.length_pos_of_ne_nil hrow
  have hle : (rowText row).length ≤ row.length := (List.takeWhile_prefix _).length_le
  have hline := hrows.lineOf_eq htext
    (show front.flatten.length ≤ front.flatten.length + (rowText row).length - 1 by omega) (by omega)
  refine ⟨by omega, hline ▸ congrArg b.lineOf ?_⟩
  omega

end ListingEditor.Buffer
