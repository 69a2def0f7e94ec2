import ListingEditor.Proofs.Buffer.Editing
import ListingEditor.Proofs.Buffer.Rows
import ListingEditor.Region

/-!
Commenting lines and taking the comments away again. Both work row by row, and the selection that the first
leaves leads the second to the same rows.
-/

namespace ListingEditor

open Buffer (Rows rowText Unbroken)

namespace Region

/-- A selection from the start of one line to the end of another. -/
def Selects (b : Buffer) (first last : Int) : Prop :=
  ∃ start stop : Nat, b.lineStart first = .ok start ∧ b.lineEnd last = .ok stop ∧
    b.anchor = start ∧ b.caret = stop

theorem selectLines_effect (b : Buffer) (first last : Nat) :
    ∃ start stop : Nat, b.lineStart first = .ok start ∧ b.lineEnd last = .ok stop ∧
      (selectLines first last).effect b = (.ok (), b.select start stop) := by
  have hstart := b.lineStart_natCast first
  have hstop : b.lineEnd last = .ok (b.endOfLineAt ((Buffer.lineStarts b.text)[last]?.getD b.length)) := by
    rw [Buffer.lineEnd, Buffer.lineStart_natCast]
    rfl
  refine ⟨_, _, hstart, hstop, ?_⟩
  rw [selectLines, Step.effect_bind_ask_of_ok (f := fun b : Buffer => b.lineStart first) hstart,
    Step.effect_bind_ask_of_ok (f := fun b : Buffer => b.lineEnd last) hstop]
  rfl

theorem extendToLines_effect {b : Buffer} {first last : Nat} (hcovered : coveredLines b = (↑first, ↑last)) :
    ∃ start stop : Nat, b.lineStart first = .ok start ∧ b.lineEnd last = .ok stop ∧
      extendToLines.effect b = (.ok (↑first, ↑last), b.select start stop) := by
  obtain ⟨start, stop, hstart, hstop, hselect⟩ := selectLines_effect b first last
  refine ⟨start, stop, hstart, hstop, ?_⟩
  rw [extendToLines, Step.effect_bind_look, hcovered]
  exact Step.effect_bind_of_ok hselect

theorem removeLead_effect (b : Buffer) (place : Int) (lead : List Char) :
    ∃ removed, (removeLead place lead).effect b = (.ok removed,
      if removed then b.replaceRange place (place + lead.length) [] else b) ∧
      (removed = true ↔ 0 < lead.length ∧ b.range place (place + lead.length) = lead) := by
  rw [removeLead, Step.effect_bind_look]
  split
  · rename_i hthere
    exact ⟨true, rfl, by simpa using hthere⟩
  · rename_i hnot
    exact ⟨false, rfl, by simpa using hnot⟩

theorem commentLine_effect {b : Buffer} {front rear : List (List Char)} {row : List Char} (marker : List Char)
    (hrows : Rows (front ++ row :: rear)) (htext : b.text = (front ++ row :: rear).flatten) :
    ∃ b', (commentLine marker front.length).effect b = (.ok (), b') ∧
      b'.text = (front ++ (marker ++ [' '] ++ row) :: rear).flatten := by
  have hstart := hrows.lineStart_eq htext
  rw [commentLine, Step.effect_bind_ask_of_ok (f := fun b : Buffer => b.lineStart front.length) hstart]
  refine ⟨_, rfl, ?_⟩
  change (b.insertAt _ _).text = _
  rw [Buffer.insertAt, if_neg (by omega), Buffer.insert_text, htext, List.flatten_append, List.take_left,
    List.drop_left, List.flatten_append, List.flatten_cons, List.flatten_cons]
  simp only [List.append_assoc]

theorem uncommentLine_effect {b : Buffer} {front rear : List (List Char)} {row : List Char} (marker : Char)
    (hrows : Rows (front ++ ([marker] ++ [' '] ++ row) :: rear))
    (htext : b.text = (front ++ ([marker] ++ [' '] ++ row) :: rear).flatten) :
    ∃ b', (uncommentLine [marker] front.length).effect b = (.ok (), b') ∧
      b'.text = (front ++ row :: rear).flatten := by
  have hparts : b.text = front.flatten ++ [marker, ' '] ++ (row ++ rear.flatten) := by
    rw [htext, List.flatten_append, List.flatten_cons]
    simp only [List.append_assoc]
    rfl
  have hthere : b.range front.flatten.length ((front.flatten.length : Int) + 2) = [marker, ' '] :=
    b.range_middle hparts
  obtain ⟨removed, hremove, hremoved⟩ := removeLead_effect b front.flatten.length [marker, ' ']
  obtain rfl : removed = true := hremoved.mpr ⟨Nat.succ_pos _, hthere⟩
  have hstart := hrows.lineStart_eq htext
  rw [uncommentLine, Step.effect_bind_ask_of_ok (f := fun b : Buffer => b.lineStart front.length) hstart,
    Step.effect_bind_look, hthere]
  change ∃ b', (removeLead _ (if [marker, ' '] = [marker, ' '] then _ else _) >>= fun _ => pure ()).effect b =
    _ ∧ _
  rw [if_pos rfl]
  refine ⟨_, Step.effect_bind_of_ok hremove, ?_⟩
  rw [if_pos rfl]
  have herased := b.replaceRange_middle [] hparts
  rw [List.append_nil, ← List.flatten_cons, ← List.flatten_append] at herased
  exact herased

/-- A command that works on a line wherever it stands works on many, as long as the rows stay rows. -/
theorem forLines_rows {command : Int → Command Unit} (old new : List Char → List Char)
    (hcommand : ∀ {front rear : List (List Char)} {row : List Char} {b : Buffer},
      Rows (front ++ old row :: rear) → b.text = (front ++ old row :: rear).flatten →
      ∃ b', (command front.length).effect b = (.ok (), b') ∧ b'.text = (front ++ new row :: rear).flatten)
    {front middle rear : List (List Char)} {b : Buffer}
    (hrows : ∀ done left, middle = done ++ left → Rows (front ++ done.map new ++ left.map old ++ rear))
    (htext : b.text = (front ++ middle.map old ++ rear).flatten) :
    ∃ b', (Command.forLines front.length middle.length command).effect b = (.ok (), b') ∧
      b'.text = (front ++ middle.map new ++ rear).flatten := by
  induction middle generalizing front b with
  | nil => exact ⟨b, rfl, htext⟩
  | cons row middle ih =>
    have hfirst := hrows [] (row :: middle) rfl
    rw [List.map_nil, List.append_nil] at hfirst
    rw [List.map_cons, List.append_assoc, List.cons_append] at hfirst htext
    obtain ⟨b₁, heffect, htext₁⟩ := hcommand hfirst htext
    have hmove (mid : List (List Char)) :
        front ++ new row :: (mid ++ rear) = front ++ [new row] ++ mid ++ rear := by simp
    have hlater (done left : List (List Char)) (hsplit : middle = done ++ left) :
        Rows (front ++ [new row] ++ done.map new ++ left.map old ++ rear) := by
      have hmoved := hrows (row :: done) left (congrArg _ hsplit)
      rwa [List.map_cons, ← List.singleton_append, ← List.append_assoc front] at hmoved
    rw [hmove] at htext₁
    obtain ⟨b₂, hloop, htext₂⟩ := ih hlater htext₁
    rw [List.length_append, List.length_singleton, Int.natCast_add] at hloop
    refine ⟨b₂, (Step.effect_bind_of_ok heffect).trans hloop, ?_⟩
    rw [htext₂, ← hmove, List.map_cons, List.append_assoc, List.cons_append]

/-- The lines that are covered are lines of the text. -/
theorem coveredLines_eq {b : Buffer} (hcaret : 0 ≤ b.caret) (hanchor : 0 ≤ b.anchor) :
    ∃ first last : Nat, coveredLines b = (↑first, ↑last) ∧ first ≤ last ∧
      last < (Buffer.lineStarts b.text).length := by
  have hline {place : Int} (hplace : 0 ≤ place) :
      ∃ line : Nat, b.lineOf place = line ∧ line < (Buffer.lineStarts b.text).length := by
    obtain ⟨line, start, hline, hstart, -, -⟩ := b.lineStart_lineOf hplace
    exact ⟨line, hline, (List.getElem?_eq_some_iff.mp hstart).1⟩
  unfold coveredLines
  split
  · obtain ⟨line, hcurrent, hlt⟩ := hline hcaret
    exact ⟨line, line, Prod.ext hcurrent hcurrent, Nat.le_refl _, hlt⟩
  · rename_i hselected
    have hstart : 0 ≤ b.selection.1 := Int.le_min.mpr ⟨hanchor, hcaret⟩
    have hstop : b.selection.1 ≤ b.selection.2 - 1 := by
      simp only [Buffer.selection] at hselected ⊢
      omega
    obtain ⟨first, hfirst, -⟩ := hline hstart
    obtain ⟨last, hlast, hlt⟩ := hline (show 0 ≤ b.selection.2 - 1 by omega)
    have hle := b.lineOf_le_lineOf hstop
    exact ⟨first, last, Prod.ext hfirst hlast, by omega, hlt⟩

theorem needsComments_isOk (marker : List Char) (b : Buffer) (first count : Nat) :
    ∃ add, needsComments marker b first count = .ok add := by
  induction count generalizing first with
  | zero => exact ⟨false, rfl⟩
  | succ count ih =>
    obtain ⟨rows, hrows, htext⟩ := Buffer.exists_rows b.text
    rw [needsComments, hrows.lineText_eq htext]
    dsimp only
    split
    · exact ih (first + 1)
    · exact ⟨true, rfl⟩

theorem forLines_isOk {command : Int → Command Unit}
    (hcommand : ∀ (line : Nat) (b : Buffer), ∃ b', (command line).effect b = (.ok (), b'))
    (first count : Nat) (b : Buffer) :
    ∃ b', (Command.forLines first count command).effect b = (.ok (), b') := by
  induction count generalizing first b with
  | zero => exact ⟨b, rfl⟩
  | succ count ih =>
    obtain ⟨b₁, hfirst⟩ := hcommand first b
    obtain ⟨b₂, hrest⟩ := ih (first + 1) b₁
    exact ⟨b₂, (Step.effect_bind_of_ok hfirst).trans hrest⟩

theorem commentLine_isOk (marker : List Char) (line : Nat) (b : Buffer) :
    ∃ b', (commentLine marker line).effect b = (.ok (), b') :=
  ⟨_, Step.effect_bind_ask_of_ok (f := fun b : Buffer => b.lineStart line) (b.lineStart_natCast line)⟩

theorem uncommentLine_isOk (marker : List Char) (line : Nat) (b : Buffer) :
    ∃ b', (uncommentLine marker line).effect b = (.ok (), b') := by
  rw [uncommentLine,
    Step.effect_bind_ask_of_ok (f := fun b : Buffer => b.lineStart line) (b.lineStart_natCast line),
    Step.effect_bind_look]
  obtain ⟨removed, hremove, -⟩ := removeLead_effect b _ _
  exact ⟨_, Step.effect_bind_of_ok hremove⟩

/-- Comments one line in or out. -/
def changeLine (marker : List Char) (add : Bool) (line : Int) : Command Unit :=
  if add then commentLine marker line else uncommentLine marker line

/-- Commenting in or out always returns. The lines that were covered are selected afterwards. -/
theorem toggleComments_effect (marker : List Char) (choice : Option Bool) {b : Buffer} {first last : Nat}
    (hcovered : coveredLines b = (↑first, ↑last)) :
    ∃ (inner changed : Buffer) (add : Bool), inner.text = b.text ∧
      (choice = some add ∨
        choice = none ∧ needsComments marker inner first (Command.lineSpan first last) = .ok add) ∧
      (Command.forLines first (Command.lineSpan first last) (changeLine marker add)).effect inner =
        (.ok (), changed) ∧
      ((toggleComments marker choice).run b).result = .ok add ∧
      ((toggleComments marker choice).run b).state.text = changed.text ∧
      Selects ((toggleComments marker choice).run b).state first last := by
  have hline (add : Bool) (line : Nat) (b : Buffer) :
      ∃ b', (changeLine marker add line).effect b = (.ok (), b') := by
    cases add
    · exact uncommentLine_isOk marker line b
    · exact commentLine_isOk marker line b
  have hopened : coveredLines b.beginUndo = (↑first, ↑last) := hcovered
  obtain ⟨start, stop, -, -, hextend⟩ := extendToLines_effect hopened
  obtain ⟨decision, hdecision⟩ := needsComments_isOk marker (b.beginUndo.select start stop) first
    (Command.lineSpan first last)
  obtain ⟨changed, hchanged⟩ := forLines_isOk (hline (choice.getD decision)) first
    (Command.lineSpan first last) (b.beginUndo.select start stop)
  obtain ⟨start', stop', hstart, hstop, hselect⟩ := selectLines_effect changed first last
  have heffect : (toggleComments marker choice).effect b =
      (.ok (choice.getD decision), (changed.select start' stop').endUndo) := by
    apply Command.grouped_effect
    rw [Step.effect_bind_of_ok hextend]
    cases choice with
    | none =>
      refine (Step.effect_bind_ask_of_ok (f := (needsComments marker · first _)) hdecision).trans ?_
      exact (Step.effect_bind_of_ok hchanged).trans (Step.effect_bind_of_ok hselect)
    | some add => exact (Step.effect_bind_of_ok hchanged).trans (Step.effect_bind_of_ok hselect)
  obtain ⟨hresult, hstate⟩ := Prod.mk.inj heffect
  refine ⟨b.beginUndo.select start stop, changed, choice.getD decision, rfl, ?_, hchanged, hresult, ?_, ?_⟩
  · cases choice with
    | none => exact .inr ⟨rfl, hdecision⟩
    | some add => exact .inl rfl
  · rw [hstate]
    rfl
  · rw [hstate]
    exact ⟨start', stop', hstart, hstop, rfl, rfl⟩

theorem lineSpan_eq {first last count : Nat} (hlast : last + 1 = first + count) :
    Command.lineSpan first last = count := by
  unfold Command.lineSpan
  omega

section

variable {marker : Char} {front middle rear : List (List Char)} {last : Nat} {b : Buffer}

theorem unbroken_lead (hmarker : Text.isSpace marker = false) : Unbroken ([marker] ++ [' ']) := by
  have hreturn : Text.isReturn marker = false := by
    rw [← Bool.not_eq_true, Text.isReturn, Bool.or_eq_true, beq_iff_eq, beq_iff_eq]
    rintro (rfl | rfl) <;> cases hmarker
  intro c hc
  rcases List.mem_cons.mp hc with rfl | hspace
  · exact hreturn
  · rw [List.mem_singleton.mp hspace]
    rfl

/-- A selection of rows that are not empty covers these rows. -/
theorem Selects.coveredLines_eq {init : List (List Char)} {final : List Char}
    (hselects : Selects b front.length (front ++ init).length)
    (hrows : Rows (front ++ init ++ final :: rear)) (htext : b.text = (front ++ init ++ final :: rear).flatten)
    (hfull : ∀ row ∈ init ++ [final], rowText row ≠ []) :
    coveredLines b = (↑front.length, ↑(front ++ init).length) := by
  obtain ⟨start, stop, hstart, hstop, hanchor, hcaret⟩ := hselects
  obtain ⟨hlt, hlast⟩ := hrows.lineOf_pred_lineEnd htext hstop (hfull final (by simp))
  have hfirst : start = front.flatten.length ∧ b.lineOf start = front.length := by
    obtain ⟨row, more, hmore⟩ := List.exists_cons_of_ne_nil (show init ++ [final] ≠ [] by simp)
    have hsplit : front ++ init ++ final :: rear = front ++ row :: (more ++ rear) := by
      rw [← List.singleton_append, ← List.append_assoc, List.append_assoc front, hmore, List.append_assoc,
        List.cons_append]
    have hpositive : 0 < row.length := by
      apply List.length_pos_of_ne_nil
      rintro rfl
      exact hfull [] (by simp [hmore]) rfl
    rw [hsplit] at hrows htext
    obtain rfl := Except.ok.inj (hstart.symm.trans (hrows.lineStart_eq htext))
    exact ⟨rfl, hrows.lineOf_eq htext (Nat.le_refl _) (by omega)⟩
  have hbefore : start < stop := by
    rw [hfirst.1]
    refine Nat.lt_of_le_of_lt ?_ hlt
    rw [List.flatten_append, List.length_append]
    omega
  have hselection : b.selection = (↑start, ↑stop) := by
    rw [Buffer.selection, hanchor, hcaret, Int.min_eq_left (by omega), Int.max_eq_right (by omega)]
  rw [coveredLines, hselection, if_neg (by dsimp only; omega)]
  exact Prod.ext hfirst.2 hlast

/-- The rows when some of them have been commented. -/
theorem rows_commented (hmarker : Text.isSpace marker = false) (hrows : Rows (front ++ middle ++ rear)) :
    Rows (front ++ middle.map ([marker] ++ [' '] ++ ·) ++ rear) :=
  hrows.insert_all (unbroken_lead hmarker) (by simp)

theorem forLines_comment (hmarker : Text.isSpace marker = false) (hrows : Rows (front ++ middle ++ rear))
    (htext : b.text = (front ++ middle ++ rear).flatten) :
    ∃ b', (Command.forLines front.length middle.length (changeLine [marker] true)).effect b = (.ok (), b') ∧
      b'.text = (front ++ middle.map ([marker] ++ [' '] ++ ·) ++ rear).flatten := by
  apply forLines_rows id ([marker] ++ [' '] ++ ·) (commentLine_effect [marker])
  · rintro done left rfl
    rw [← List.append_assoc front, List.append_assoc _ left] at hrows
    rw [List.map_id, List.append_assoc _ left]
    exact rows_commented hmarker hrows
  · rw [List.map_id, htext]

theorem forLines_uncomment (hmarker : Text.isSpace marker = false) (hrows : Rows (front ++ middle ++ rear))
    (htext : b.text = (front ++ middle.map ([marker] ++ [' '] ++ ·) ++ rear).flatten) :
    ∃ b', (Command.forLines front.length middle.length (changeLine [marker] false)).effect b = (.ok (), b') ∧
      b'.text = (front ++ middle ++ rear).flatten := by
  have hloop := forLines_rows ([marker] ++ [' '] ++ ·) id (uncommentLine_effect marker)
    (fun done left hsplit => ?_) htext
  · rwa [List.map_id] at hloop
  · rw [hsplit, ← List.append_assoc front] at hrows
    rw [List.map_id]
    exact rows_commented hmarker hrows

/-- The texts of the lines when some of them have been commented. -/
theorem lineText_commented (hmarker : Text.isSpace marker = false) (hrows : Rows (front ++ middle ++ rear))
    (htext : b.text = (front ++ middle ++ rear).flatten) {b' : Buffer}
    (htext' : b'.text = (front ++ middle.map ([marker] ++ [' '] ++ ·) ++ rear).flatten)
    (hlast : last + 1 = front.length + middle.length) (line : Nat) :
    ∃ text, b.lineText line = .ok text ∧
      b'.lineText line = .ok (if front.length ≤ line ∧ line ≤ last then marker :: ' ' :: text else text) := by
  refine ⟨_, hrows.lineText_eq htext line, ?_⟩
  rw [(rows_commented hmarker hrows).lineText_eq htext' line, List.append_assoc, List.append_assoc]
  rcases Nat.lt_or_ge line front.length with hbefore | hfrom
  · rw [if_neg (by omega), List.getElem?_append_left hbefore, List.getElem?_append_left hbefore]
  obtain ⟨i, rfl⟩ := Nat.exists_eq_add_of_le hfrom
  rw [List.getElem?_append_right hfrom, List.getElem?_append_right hfrom, Nat.add_sub_cancel_left]
  rcases Nat.lt_or_ge i middle.length with hinside | hbehind
  · rw [if_pos (by omega), List.getElem?_append_left (by rwa [List.length_map]),
      List.getElem?_append_left hinside, List.getElem?_map, List.getElem?_eq_getElem hinside]
    exact congrArg _ (Buffer.rowText_append (unbroken_lead hmarker) _)
  · rw [if_neg (by omega), List.getElem?_append_right (by rwa [List.length_map]), List.length_map,
      List.getElem?_append_right hbehind]

theorem needsComments_eq_false {first count : Nat}
    (hcommented : ∀ line : Nat, first ≤ line → line < first + count → ∃ text, b.lineText line = .ok (marker :: text)) :
    needsComments [marker] b first count = .ok false := by
  induction count generalizing first with
  | zero => rfl
  | succ count ih =>
    obtain ⟨text, htext⟩ := hcommented first (Nat.le_refl _) (by omega)
    have hfirst : isCommented [marker] (marker :: text) = true := by simp [isCommented]
    rw [needsComments, htext]
    simp only [hfirst, if_true]
    have hlater (line : Nat) (hle : first + 1 ≤ line) (hlt : line < first + 1 + count) :
        ∃ text, b.lineText line = .ok (marker :: text) := hcommented line (by omega) (by omega)
    exact ih hlater

/-- Commenting rows: each is written to, and they stay covered. -/
theorem toggleComments_of_true (hmarker : Text.isSpace marker = false) (hrows : Rows (front ++ middle ++ rear))
    (htext : b.text = (front ++ middle ++ rear).flatten) (hlast : last + 1 = front.length + middle.length)
    (hmiddle : middle ≠ []) (hcovered : coveredLines b = (↑front.length, ↑last)) {choice : Option Bool}
    (hadd : ((toggleComments [marker] choice).run b).result = .ok true) :
    ((toggleComments [marker] choice).run b).state.text =
        (front ++ middle.map ([marker] ++ [' '] ++ ·) ++ rear).flatten ∧
      coveredLines ((toggleComments [marker] choice).run b).state = (↑front.length, ↑last) := by
  obtain ⟨inner, changed, add, hinner, -, hloop, hresult, hstate, hselects⟩ :=
    toggleComments_effect [marker] choice hcovered
  obtain rfl := Except.ok.inj (hadd.symm.trans hresult)
  rw [lineSpan_eq hlast] at hloop
  obtain ⟨changed', hloop', htext'⟩ := forLines_comment hmarker hrows (hinner.trans htext)
  obtain rfl := (Prod.mk.inj (hloop.symm.trans hloop')).2
  rw [← hstate] at htext'
  refine ⟨htext', ?_⟩
  have hrows' := rows_commented hmarker hrows
  obtain ⟨init, final, rfl⟩ := (List.eq_nil_or_concat middle).resolve_left hmiddle
  have hparts : front ++ (init.concat final).map ([marker] ++ [' '] ++ ·) ++ rear =
      front ++ init.map ([marker] ++ [' '] ++ ·) ++ ([marker] ++ [' '] ++ final) :: rear := by simp
  have hlength : last = (front ++ init.map ([marker] ++ [' '] ++ ·)).length := by
    rw [List.length_concat] at hlast
    rw [List.length_append, List.length_map]
    omega
  rw [hparts] at hrows' htext'
  rw [hlength] at hselects ⊢
  refine hselects.coveredLines_eq hrows' htext' fun row hrow => ?_
  obtain ⟨bare, -, rfl⟩ : ∃ bare ∈ init ++ [final], [marker] ++ [' '] ++ bare = row := by
    rw [← List.mem_map]
    simpa using hrow
  rw [Buffer.rowText_append (unbroken_lead hmarker)]
  exact List.cons_ne_nil _ _

theorem toggleComments_of_commented (hmarker : Text.isSpace marker = false)
    (hrows : Rows (front ++ middle ++ rear)) (hlast : last + 1 = front.length + middle.length)
    (htext : b.text = (front ++ middle.map ([marker] ++ [' '] ++ ·) ++ rear).flatten)
    (hcovered : coveredLines b = (↑front.length, ↑last)) {choice : Option Bool} (hchoice : choice ≠ some true) :
    ((toggleComments [marker] choice).run b).result = .ok false ∧
      ((toggleComments [marker] choice).run b).state.text = (front ++ middle ++ rear).flatten := by
  obtain ⟨inner, changed, add, hinner, hdecision, hloop, hresult, hstate, -⟩ :=
    toggleComments_effect [marker] choice hcovered
  rw [lineSpan_eq hlast] at hloop hdecision
  have hfalse : add = false := by
    rcases hdecision with rfl | ⟨-, hneeds⟩
    · simpa using hchoice
    · have hnone : needsComments [marker] inner front.length middle.length = .ok false := by
        apply needsComments_eq_false
        intro line hle hlt
        have hplain : ({ inner with text := (front ++ middle ++ rear).flatten } : Buffer).text =
            (front ++ middle ++ rear).flatten := rfl
        obtain ⟨text, -, hline⟩ := lineText_commented hmarker hrows hplain (hinner.trans htext) hlast line
        rw [if_pos (by omega)] at hline
        exact ⟨_, hline⟩
      exact Except.ok.inj (hneeds.symm.trans hnone)
  subst hfalse
  obtain ⟨changed', hloop', htext'⟩ := forLines_uncomment hmarker hrows (hinner.trans htext)
  obtain rfl := (Prod.mk.inj (hloop.symm.trans hloop')).2
  exact ⟨hresult, hstate.trans htext'⟩

end

theorem exists_split {α : Type} {l : List α} {first last : Nat} (hle : first ≤ last) (hlt : last < l.length) :
    ∃ front middle rear, l = front ++ middle ++ rear ∧ front.length = first ∧ last + 1 = first + middle.length := by
  refine ⟨l.take first, (l.drop first).take (last + 1 - first), (l.drop first).drop (last + 1 - first), ?_, ?_, ?_⟩
  · rw [List.append_assoc, List.take_append_drop, List.take_append_drop]
  · rw [List.length_take]
    omega
  · rw [List.length_take, List.length_drop]
    omega

/-- The rows of a buffer, with those that are covered in the middle. -/
theorem exists_covered_rows {b : Buffer} (hcaret : 0 ≤ b.caret) (hanchor : 0 ≤ b.anchor) :
    ∃ (front middle rear : List (List Char)) (last : Nat), Rows (front ++ middle ++ rear) ∧
      b.text = (front ++ middle ++ rear).flatten ∧ middle ≠ [] ∧
      last + 1 = front.length + middle.length ∧ coveredLines b = (↑front.length, ↑last) := by
  obtain ⟨rows, hrows, htext⟩ := Buffer.exists_rows b.text
  obtain ⟨first, last, hcovered, hle, hlt⟩ := coveredLines_eq hcaret hanchor
  rw [htext, hrows.lineStarts_eq, Buffer.rowStarts_length] at hlt
  obtain ⟨front, middle, rear, rfl, rfl, hlast⟩ := exists_split hle hlt
  refine ⟨front, middle, rear, last, hrows, htext, ?_, hlast, hcovered⟩
  apply List.ne_nil_of_length_pos
  omega

/-- Comments that have been put in come out again. Commenting in or out always returns what it did, and selects
the lines that were covered. Where it has put in comments, each covered line starts with the marker and a space;
taking the comments away, or toggling once more, then restores the text and selects the same lines. -/
theorem toggleComments_restores {marker : Char} (hmarker : Text.isSpace marker = false) {b : Buffer}
    (hcaret : 0 ≤ b.caret) (hanchor : 0 ≤ b.anchor) :
    let lines := coveredLines b
    let toggle (choice : Option Bool) (b : Buffer) := (toggleComments [marker] choice).run b
    (∀ choice, ∃ add, (toggle choice b).result = .ok add ∧ (∀ wanted, choice = some wanted → add = wanted) ∧
      Selects (toggle choice b).state lines.1 lines.2) ∧
    ∀ choice back, (toggle choice b).result = .ok true → back ≠ some true →
      let commented := (toggle choice b).state
      (∀ line : Nat, ∃ text, b.lineText line = .ok text ∧ commented.lineText line =
        .ok (if lines.1 ≤ line ∧ line ≤ lines.2 then marker :: ' ' :: text else text)) ∧
      (toggle back commented).result = .ok false ∧ (toggle back commented).state.text = b.text ∧
      Selects (toggle back commented).state lines.1 lines.2 := by
  intro lines toggle
  obtain ⟨front, middle, rear, last, hrows, htext, hmiddle, hlast, hcovered⟩ :=
    exists_covered_rows hcaret hanchor
  have hlines : lines = (↑front.length, ↑last) := hcovered
  rw [hlines]
  constructor
  · intro choice
    obtain ⟨_, _, add, _, hdecision, _, hresult, _, hselects⟩ :=
      toggleComments_effect [marker] choice hcovered
    refine ⟨add, hresult, fun wanted hwanted => ?_, hselects⟩
    rcases hdecision with hgiven | ⟨hnone, -⟩
    · exact Option.some.inj (hgiven.symm.trans hwanted)
    · cases hnone.symm.trans hwanted
  · intro choice back hadd hback commented
    obtain ⟨hcommented, hagain⟩ :=
      toggleComments_of_true hmarker hrows htext hlast hmiddle hcovered hadd
    obtain ⟨hresult, hrestored⟩ := toggleComments_of_commented hmarker hrows hlast hcommented hagain hback
    obtain ⟨_, _, _, _, _, _, _, _, hselects⟩ := toggleComments_effect [marker] back hagain
    refine ⟨fun line => ?_, hresult, hrestored.trans htext.symm, hselects⟩
    obtain ⟨text, hplain, hline⟩ := lineText_commented hmarker hrows htext hcommented hlast line
    refine ⟨text, hplain, hline.trans ?_⟩
    simp only [Int.ofNat_le]

/-- Lines with ends of every kind, an empty one among them, and a selection that reaches into the last. -/
def mixedEnds : Buffer :=
  (Buffer.ofText "#a\r\nb\r\n\r c\n\n  d".toList none false 2 1024).select 1 14

theorem toggleComments_restores_mixedEnds :
    ((toggleComments ['#'] none).run mixedEnds).result = .ok true ∧
      ((toggleComments ['#'] none).run ((toggleComments ['#'] none).run mixedEnds).state).result = .ok false ∧
      ((toggleComments ['#'] none).run ((toggleComments ['#'] none).run mixedEnds).state).state.text =
        mixedEnds.text := by
  have hmarker : Text.isSpace '#' = false := by decide
  have hadd : ((toggleComments ['#'] none).run mixedEnds).result = .ok true := by decide +kernel
  obtain ⟨-, hrestores⟩ := toggleComments_restores hmarker (show 0 ≤ mixedEnds.caret by decide)
    (show 0 ≤ mixedEnds.anchor by decide)
  obtain ⟨-, hresult, htext, -⟩ := hrestores none none hadd nofun
  exact ⟨hadd, hresult, htext⟩

end Region

end ListingEditor
