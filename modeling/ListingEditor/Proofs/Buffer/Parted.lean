import ListingEditor.Proofs.Buffer.LineTexts

/-!
Returns that come to stand next to each other. A carriage return takes in a line feed that comes to stand behind it, so
a line end that is put in adds a line only if it joins no return.
-/

namespace ListingEditor.Buffer

open Text (SplitsBreak)

section Rows

variable {front rear new : List (List Char)} {row : List Char}

/-- Rows that end with a carriage return end with a row that does, and no line feed comes behind it. -/
theorem Rows.exists_return (hrows : Rows (front ++ rear)) (hne : rear ≠ [])
    (hlast : front.flatten.getLast? = some '\r') :
    ∃ init body, front = init ++ [body ++ ['\r']] ∧ Unbroken body ∧ rear.flatten.head? ≠ some '\n' := by
  obtain rfl | ⟨init, previous, rfl⟩ := List.eq_nil_or_concat front
  · cases hlast
  · rw [List.concat_eq_append, List.append_assoc] at hrows
    obtain ⟨body, ending, rfl, hbody, hending, hwhole, -⟩ := (hrows.of_append (List.cons_ne_nil _ _)).uncons hne
    rw [List.concat_eq_append, List.flatten_append, List.flatten_singleton, ← List.append_assoc,
      List.getLast?_append_of_ne_nil _ hending.ne_nil] at hlast
    refine ⟨init, body, ?_, hbody, fun hhead => hwhole ⟨hlast, hhead⟩⟩
    cases hending with
    | pair => simp at hlast
    | single hreturn =>
      obtain rfl : _ = '\r' := Option.some.inj hlast
      exact List.concat_eq_append

theorem Rows.not_splitsBreak (hrows : Rows (front ++ rear)) (hne : rear ≠ []) :
    ¬ SplitsBreak front.flatten rear.flatten := by
  rintro ⟨hlast, hhead⟩
  obtain ⟨init, body, -, -, hother⟩ := hrows.exists_return hne hlast
  exact hother hhead

/-- The carriage return at the end of a row takes in a line feed that comes to stand behind it. -/
theorem Rows.fuse (hrows : Rows (front ++ rear)) (hne : rear ≠ []) (hlast : front.flatten.getLast? = some '\r')
    (hnew : Rows new) :
    ∃ init body, front = init ++ [body ++ ['\r']] ∧ Unbroken body ∧ Rows (init ++ (body ++ ['\r', '\n']) :: new) := by
  obtain ⟨init, body, rfl, hbody, -⟩ := hrows.exists_return hne hlast
  refine ⟨init, body, rfl, hbody, ?_⟩
  have hfused : Rows ((body ++ ['\r', '\n']) :: new) := .cons hbody .pair (by simp [SplitsBreak]) hnew
  rw [List.append_assoc] at hrows
  refine hrows.exchange_rear (List.cons_ne_nil _ _) hfused fun hsplits => ?_
  refine hrows.not_splitsBreak (List.cons_ne_nil _ _) ⟨hsplits.1, ?_⟩
  have hhead := hsplits.2
  cases body with
  | nil => cases hhead
  | cons c body => exact hhead

/-- A row that starts with a line feed is that line feed. -/
theorem Rows.of_feed (hrows : Rows (row :: rear)) (hhead : (row ++ rear.flatten).head? = some '\n') :
    row = ['\n'] ∧ Rows rear := by
  cases hrows with
  | last hbody =>
    rw [List.flatten_nil, List.append_nil] at hhead
    exact absurd hhead hbody.head?_ne_feed
  | @cons body ending _ hbody hending hwhole hlater =>
    obtain rfl : body = [] := by
      by_contra hne
      rw [List.append_assoc, List.head?_append_of_ne_nil _ hne] at hhead
      exact hbody.head?_ne_feed hhead
    cases hending with
    | pair => cases hhead
    | single hreturn =>
      obtain rfl : _ = '\n' := Option.some.inj hhead
      exact ⟨rfl, hlater⟩

end Rows

variable {b : Buffer} {front rear : List (List Char)} {before after : List Char}

/-- A part of a row that leaves something of it behind, and not only half of a pair of returns, holds no return. -/
theorem Rows.unbroken_left (hrows : Rows ((before ++ after) :: rear)) (hsome : rear = [] ∨ after ≠ [])
    (hwhole : ¬ SplitsBreak before after) : Unbroken before := by
  generalize hrow : before ++ after = row at hrows
  cases hrows with
  | last hbody =>
    subst hrow
    exact fun c hc => hbody c (List.mem_append_left _ hc)
  | @cons body ending _ hbody hending _ hlater =>
    obtain ⟨left, rfl, -⟩ | ⟨right, rfl, hright⟩ := List.append_eq_append_iff.mp hrow
    · exact fun c hc => hbody c (List.mem_append_left _ hc)
    · have hafter : after ≠ [] := hsome.resolve_left (by rintro rfl; cases hlater)
      cases right with
      | nil => rwa [List.append_nil]
      | cons c right =>
        -- only a pair of returns can be cut, and only in its middle
        cases hending with
        | single hreturn => exact absurd (List.append_eq_nil_iff.mp (List.cons.inj hright).2.symm).2 hafter
        | pair =>
          obtain ⟨rfl, htail⟩ := List.cons.inj hright
          cases right with
          | nil =>
            subst htail
            exact absurd ⟨List.getLast?_concat, rfl⟩ hwhole
          | cons d right => exact absurd (List.append_eq_nil_iff.mp (List.cons.inj htail).2.symm).2 hafter

/-- A caret that is not inside a pair of returns has no return of its line before it. -/
theorem Cut.unbroken (hcut : b.Cut front before after rear)
    (hwhole : ¬ SplitsBreak (b.text.take b.caret.toNat) (b.text.drop b.caret.toNat)) : Unbroken before := by
  rw [hcut.text_eq, hcut.caret, Int.toNat_natCast, List.take_left, List.drop_left] at hwhole
  refine (hcut.rows.of_append (List.cons_ne_nil _ _)).unbroken_left ?_ fun hsplits => hwhole ?_
  · refine (hcut.rows.lt_of_lineOf_eq hcut.text hcut.current).imp_right ?_
    rintro hlt rfl
    simp only [hcut.caret, List.length_append, List.length_nil] at hlt
    omega
  · refine ⟨(hsplits.append _).1, ?_⟩
    rw [List.head?_append, hsplits.2]
    rfl

/-- The last line of a buffer as a row. -/
theorem exists_last_row (b : Buffer) :
    ∃ front row, Rows (front ++ [row]) ∧ Unbroken row ∧ b.text = front.flatten ++ row := by
  obtain ⟨rows, hrows, htext⟩ := exists_rows b.text
  obtain rfl | ⟨front, row, rfl⟩ := List.eq_nil_or_concat rows
  · cases hrows
  · rw [List.concat_eq_append] at hrows htext
    have hlast : Rows [row ++ []] := by
      rw [List.append_nil]
      exact hrows.of_append (List.cons_ne_nil _ _)
    refine ⟨front, row, hrows, hlast.unbroken_left (.inl rfl) fun hsplits => ?_, ?_⟩
    · cases hsplits.2
    · rw [htext, List.flatten_append, List.flatten_singleton]

/-- Text without a return that is put in at the end stays in the last line. -/
theorem lineTexts_append_unbroken {b' : Buffer} {text : List Char} (hunbroken : Unbroken text)
    (htext : b'.text = b.text ++ text) :
    ∃ last, b'.lineTexts = b.lineTexts.set (b.lineTexts.length - 1) last := by
  obtain ⟨front, row, hrows, hrow, hold⟩ := b.exists_last_row
  have hlast := hrow.append hunbroken
  have hnew : Rows (front ++ [row ++ text]) := by
    refine hrows.exchange_rear (List.cons_ne_nil _ _) (.last hlast) fun hsplits => ?_
    rw [List.flatten_singleton] at hsplits
    exact hlast.head?_ne_feed hsplits.2
  have hflat (row : List Char) : front.flatten ++ row = (front ++ [row]).flatten := by
    rw [List.flatten_append, List.flatten_singleton]
  refine ⟨rowText (row ++ text), ?_⟩
  rw [hnew.lineTexts_eq (by rw [htext, hold, List.append_assoc, hflat]),
    hrows.lineTexts_eq (by rw [hold, hflat]), List.map_append, List.map_append]
  simp

/-- A buffer whose text is whole lines, what is left before the caret of the line it is in, and rows again. The return
above and the text behind the caret may have come to stand next to each other. -/
structure Parted (b : Buffer) (front : List (List Char)) (kept after : List Char) (rear : List (List Char)) : Prop where
  above : ∃ row, Rows (front ++ row :: rear)
  unbroken : Unbroken kept
  rows : Rows (after :: rear)
  text : b.text = front.flatten ++ kept ++ (after ++ rear.flatten)
  caret : b.caret = (front.flatten ++ kept).length

section Parted

variable {kept newline : List Char}

theorem Unbroken.getLast?_ne_return {text : List Char} (hunbroken : Unbroken text) : text.getLast? ≠ some '\r' := by
  intro hlast
  cases hunbroken '\r' (List.mem_of_mem_getLast? hlast)

/-- The rows from the caret's line on can be exchanged, if they do not start with the line feed of the row above. -/
theorem Parted.exchange (hparted : b.Parted front kept after rear) {rest : List Char} {new : List (List Char)}
    (hnew : Rows ((kept ++ rest) :: new)) (hsplit : kept = [] → ¬ SplitsBreak front.flatten (rest ++ new.flatten)) :
    Rows (front ++ (kept ++ rest) :: new) := by
  obtain ⟨row, hrow⟩ := hparted.above
  refine hrow.exchange_rear (List.cons_ne_nil _ _) hnew fun hsplits => ?_
  rw [List.flatten_cons, List.append_assoc] at hsplits
  by_cases hnone : kept = []
  · subst hnone
    exact hsplit rfl hsplits
  · have hhead := hsplits.2
    rw [List.head?_append_of_ne_nil _ hnone] at hhead
    exact hparted.unbroken.head?_ne_feed hhead

/-- The caret of a parted buffer is in the line that it was in, or in the one before. -/
theorem Parted.currentLine_cases (hparted : b.Parted front kept after rear) :
    b.currentLine = front.length ∨ b.currentLine + 1 = front.length := by
  by_cases hjoined : kept = [] ∧ SplitsBreak front.flatten (after ++ rear.flatten)
  · right
    obtain ⟨rfl, hlast, hhead⟩ := hjoined
    obtain ⟨row, hrow⟩ := hparted.above
    obtain ⟨rfl, hrear⟩ := hparted.rows.of_feed hhead
    obtain ⟨init, body, rfl, hbody, hfused⟩ := hrow.fuse (List.cons_ne_nil _ _) hlast hrear
    have htext : b.text = (init ++ (body ++ ['\r', '\n']) :: rear).flatten := by
      rw [hparted.text]
      simp
    have hplace : b.caret = (init.flatten.length + (body.length + 1) : Nat) := by
      rw [hparted.caret]
      simp
    rw [currentLine, hplace, hfused.lineOf_eq htext (by omega) (by simp), List.length_append]
    rfl
  · left
    have hempty : Unbroken [] := nofun
    have hlead : Rows (([] ++ after) :: rear) := hparted.rows
    have hrows := hparted.exchange (hlead.exchange_lead hempty hparted.unbroken) fun hnone hsplits =>
      hjoined ⟨hnone, hsplits⟩
    have htext : b.text = (front ++ (kept ++ after) :: rear).flatten := by
      rw [hparted.text, List.flatten_append, List.flatten_cons]
      simp only [List.append_assoc]
    have hcolumn : kept.length ≤ (rowText (kept ++ after)).length := by
      rw [rowText_append hparted.unbroken]
      exact (List.prefix_append ..).length_le
    rw [currentLine, hparted.caret, List.length_append]
    exact hrows.lineOf_column htext hcolumn

/-- A carriage return that is the last thing before the caret ends the line above. -/
theorem Parted.splitsBreak_iff (hparted : b.Parted front kept after rear) :
    SplitsBreak (front.flatten ++ kept) newline ↔ kept = [] ∧ SplitsBreak front.flatten newline := by
  by_cases hnone : kept = []
  · simp [hnone]
  · refine iff_of_false (fun hsplits => ?_) fun hboth => hnone hboth.1
    have hlast := hsplits.1
    rw [List.getLast?_append_of_ne_nil _ hnone] at hlast
    exact hparted.unbroken.getLast?_ne_return hlast

theorem isEnding_newline (b : Buffer) : IsEnding b.newline := by
  unfold newline lineEnding
  split
  · exact .pair
  · split
    · exact .single rfl
    · exact .single rfl

/-- Whether a line end joins a return next to it when it is put in between two parts of a text. -/
def Joins (before newline after : List Char) : Prop := SplitsBreak before newline ∨ SplitsBreak newline after

theorem Parted.lineTexts_of_not_joins (hparted : b.Parted front kept after rear) (hending : IsEnding newline)
    {b' : Buffer} (htext : b'.text = front.flatten ++ kept ++ newline ++ (after ++ rear.flatten))
    (hjoins : ¬ Joins (front.flatten ++ kept) newline (after ++ rear.flatten)) :
    b'.lineTexts = front.map rowText ++ kept :: rowText after :: rear.map rowText := by
  have hnew : Rows ((kept ++ newline) :: after :: rear) :=
    .cons hparted.unbroken hending (fun hsplits => hjoins (.inr hsplits)) hparted.rows
  have hrows : Rows (front ++ (kept ++ newline) :: after :: rear) := by
    refine hparted.exchange hnew fun hnone hsplits => hjoins (.inl ?_)
    have hhead := hsplits.2
    rw [List.head?_append_of_ne_nil _ hending.ne_nil] at hhead
    exact hparted.splitsBreak_iff.mpr ⟨hnone, hsplits.1, hhead⟩
  have hkept : rowText (kept ++ newline) = kept := by
    have hrow := rowText_append_ending hparted.unbroken hending []
    rwa [List.append_nil] at hrow
  have htext' : b'.text = (front ++ (kept ++ newline) :: after :: rear).flatten := by
    rw [htext, List.flatten_append, List.flatten_cons, List.flatten_cons]
    simp only [List.append_assoc]
  rw [hrows.lineTexts_eq htext', List.map_append, List.map_cons, List.map_cons, hkept]

theorem Parted.lineTexts_of_joins (hparted : b.Parted front kept after rear) (hending : IsEnding newline)
    {b' : Buffer} (htext : b'.text = front.flatten ++ kept ++ newline ++ (after ++ rear.flatten))
    (hjoins : Joins (front.flatten ++ kept) newline (after ++ rear.flatten)) :
    ∃ changed, b'.lineTexts = front.map rowText ++ changed :: rear.map rowText := by
  rw [Joins, hparted.splitsBreak_iff] at hjoins
  obtain ⟨rfl, hlast, hhead⟩ | ⟨hlast, hhead⟩ := hjoins
  · -- the carriage return above takes in the line feed that is put in
    obtain rfl : newline = ['\n'] := by
      cases hending with
      | pair => cases hhead
      | single hreturn => exact congrArg ([·]) (Option.some.inj hhead)
    obtain ⟨row, hrow⟩ := hparted.above
    obtain ⟨init, body, rfl, hbody, hfused⟩ := hrow.fuse (List.cons_ne_nil _ _) hlast hparted.rows
    have htext' : b'.text = (init ++ (body ++ ['\r', '\n']) :: after :: rear).flatten := by
      rw [htext]
      simp
    have hsame : rowText (body ++ ['\r', '\n']) = rowText (body ++ ['\r']) := by
      rw [rowText_append hbody, rowText_append hbody]
      rfl
    refine ⟨rowText after, ?_⟩
    rw [hfused.lineTexts_eq htext', List.map_append, List.map_cons, List.map_cons, hsame]
    simp
  · -- the line feed behind joins the carriage return that is put in
    obtain rfl : newline = ['\r'] := by
      cases hending with
      | pair => simp at hlast
      | single hreturn => exact congrArg ([·]) (Option.some.inj hlast)
    obtain ⟨rfl, hrear⟩ := hparted.rows.of_feed hhead
    have hnew : Rows ((kept ++ ['\r', '\n']) :: rear) := .cons hparted.unbroken .pair (by simp [SplitsBreak]) hrear
    have hrows : Rows (front ++ (kept ++ ['\r', '\n']) :: rear) := by
      refine hparted.exchange hnew fun _ hsplits => ?_
      cases hsplits.2
    have htext' : b'.text = (front ++ (kept ++ ['\r', '\n']) :: rear).flatten := by
      rw [htext]
      simp
    refine ⟨rowText (kept ++ ['\r', '\n']), ?_⟩
    rw [hrows.lineTexts_eq htext', List.map_append, List.map_cons]

end Parted

end ListingEditor.Buffer
