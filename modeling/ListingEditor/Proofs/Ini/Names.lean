import ListingEditor.Ini
import ListingEditor.Proofs.Text.Blank

/-!
The names in a configuration. A configuration is read line by line, so the name of a section or of an option holds no
line feed, whatever the text is; only values can go on in the next line.
-/

namespace ListingEditor.Text

/-- A piece of a text that ends at a line feed holds no other. -/
theorem exists_body_of_mem_feedLines {text line : List Char} (hmem : line ∈ feedLines text) :
    ∃ body, '\n' ∉ body ∧ (line = body ∨ line = body ++ ['\n']) := by
  fun_induction feedLines text generalizing line with
  | case1 => cases hmem
  | case2 cs ih =>
    obtain rfl | hmem := List.mem_cons.mp hmem
    · exact ⟨[], List.not_mem_nil, .inr rfl⟩
    · exact ih hmem
  | case3 c cs hfeed hnone ih =>
    obtain rfl := List.mem_singleton.mp hmem
    exact ⟨[c], by simpa using Ne.symm hfeed, .inl rfl⟩
  | case4 c cs hfeed first rest hlines ih =>
    rw [hlines] at ih
    obtain rfl | hmem := List.mem_cons.mp hmem
    · obtain ⟨body, hbody, hline⟩ := ih List.mem_cons_self
      refine ⟨c :: body, by simpa [Ne.symm hfeed] using hbody, ?_⟩
      exact hline.imp (congrArg (c :: ·)) (congrArg (c :: ·))
    · exact ih (List.mem_cons_of_mem _ hmem)

theorem mem_of_mem_trimEnd {kind : Char → Bool} {text : List Char} {c : Char} (hc : c ∈ trimEnd kind text) :
    c ∈ text := by
  obtain ⟨tail, htext, -⟩ := exists_eq_trimEnd_append kind text
  rw [htext]
  exact List.mem_append_left tail hc

theorem mem_of_mem_trim {text : List Char} {c : Char} (hc : c ∈ trim text) : c ∈ text :=
  (List.dropWhile_sublist _).subset (mem_of_mem_trimEnd hc)

theorem feed_not_mem_trim {text line : List Char} (hmem : line ∈ feedLines text) : '\n' ∉ trim line := by
  obtain ⟨body, hbody, rfl | rfl⟩ := exists_body_of_mem_feedLines hmem
  · exact fun hfeed => hbody (mem_of_mem_trim hfeed)
  · rw [trim_concat rfl]
    exact fun hfeed => hbody (mem_of_mem_trim hfeed)

end ListingEditor.Text

namespace ListingEditor.Ini

/-- Entries whose names hold no line feed. -/
def OneLineNames (entries : List Entry) : Prop := ∀ entry ∈ entries, '\n' ∉ entry.name

theorem header?_oneLine {text name : List Char} (htext : '\n' ∉ text) (hheader : header? text = some name) :
    '\n' ∉ name := by
  unfold header? at hheader
  split at hheader
  · rename_i rest
    dsimp only at hheader
    split at hheader
    · cases hheader
    · obtain rfl := Option.some.inj hheader
      intro hfeed
      have hinside := List.mem_reverse.mp (List.dropLast_subset _ hfeed)
      exact htext (List.mem_cons_of_mem _ (List.mem_reverse.mp ((List.dropWhile_sublist _).subset hinside)))
  · cases hheader

theorem option?_oneLine {text name value : List Char} (htext : '\n' ∉ text)
    (hoption : option? text = some (name, value)) : '\n' ∉ name := by
  unfold option? at hoption
  split at hoption
  · cases hoption
  · obtain ⟨rfl, -⟩ := Prod.mk.inj (Option.some.inj hoption)
    exact fun hfeed => htext ((List.takeWhile_sublist _).subset (Text.mem_of_mem_trimEnd hfeed))

namespace State

/-- A state in which no name holds a line feed. -/
structure OneLine (s : State) : Prop where
  defaults : OneLineNames s.defaults
  sections : ∀ sec ∈ s.sections, '\n' ∉ sec.name ∧ OneLineNames sec.entries

variable {s t : State}

theorem start_oneLine : start.OneLine where
  defaults := List.forall_mem_nil _
  sections := List.forall_mem_nil _

theorem OneLine.of_eq (hs : s.OneLine) (hdefaults : t.defaults = s.defaults) (hsections : t.sections = s.sections) :
    t.OneLine := ⟨hdefaults ▸ hs.defaults, hsections ▸ hs.sections⟩

theorem OneLine.updateEntries (hs : s.OneLine) (name : List Char) {f : List Entry → List Entry}
    (hf : ∀ entries, OneLineNames entries → OneLineNames (f entries)) : (s.updateEntries name f).OneLine := by
  unfold State.updateEntries
  split
  · exact ⟨hf _ hs.defaults, hs.sections⟩
  · refine ⟨hs.defaults, fun sec hsec => ?_⟩
    obtain ⟨old, hold, rfl⟩ := List.mem_map.mp hsec
    obtain ⟨hname, hentries⟩ := hs.sections old hold
    split
    · exact ⟨hname, hf _ hentries⟩
    · exact ⟨hname, hentries⟩

theorem OneLine.continueValue (hs : s.OneLine) (sectionName option line : List Char) :
    (s.continueValue sectionName option line).OneLine := by
  apply hs.updateEntries
  intro entries hentries entry hentry
  obtain ⟨old, hold, rfl⟩ := List.mem_map.mp hentry
  split
  · exact hentries old hold
  · exact hentries old hold

theorem OneLine.openSection (hs : s.OneLine) {number : Nat} {name : List Char} (hname : '\n' ∉ name)
    (hopen : s.openSection number name = .ok t) : t.OneLine := by
  unfold State.openSection at hopen
  split at hopen
  · cases hopen
  · split at hopen
    · cases hopen
      exact hs.of_eq rfl rfl
    · cases hopen
      refine ⟨hs.defaults, fun sec hsec => ?_⟩
      obtain hold | hnew := List.mem_append.mp hsec
      · exact hs.sections sec hold
      · obtain rfl := List.mem_singleton.mp hnew
        exact ⟨hname, nofun⟩

theorem OneLine.openOption (hs : s.OneLine) {number : Nat} {sectionName line text : List Char} (htext : '\n' ∉ text)
    (hopen : s.openOption number sectionName line text = .ok t) : t.OneLine := by
  unfold State.openOption at hopen
  split at hopen
  · cases hopen
    exact hs.of_eq rfl rfl
  · rename_i name value hoption
    dsimp only at hopen
    split at hopen
    · cases hopen
    · cases hopen
      have hadded (entries : List Entry) (hentries : OneLineNames entries) :
          OneLineNames (entries ++ [⟨name, [value]⟩]) := by
        intro entry hentry
        obtain hold | hnew := List.mem_append.mp hentry
        · exact hentries entry hold
        · obtain rfl := List.mem_singleton.mp hnew
          exact option?_oneLine htext hoption
      refine OneLine.updateEntries ?_ sectionName hadded
      exact hs.of_eq rfl rfl

/-- A line that is a header or starts an option. -/
theorem OneLine.openLine (hs : s.OneLine) {number : Nat} {text : List Char} (htext : '\n' ∉ text)
    {otherwise : Except Fault State} (hotherwise : ∀ t, otherwise = .ok t → t.OneLine)
    (hopen : (match header? text with
      | some name => s.openSection number name
      | none => otherwise) = .ok t) : t.OneLine := by
  split at hopen
  · rename_i name hheader
    exact hs.openSection (header?_oneLine htext hheader) hopen
  · exact hotherwise t hopen

theorem OneLine.readText (hs : s.OneLine) {number : Nat} {line text : List Char} (htext : '\n' ∉ text)
    (hread : s.readText number line text = .ok t) : t.OneLine := by
  -- how deep the line stands does not matter for the names
  have hdeep (depth : Nat) : OneLine { s with indent := depth } := hs.of_eq rfl rfl
  unfold State.readText at hread
  dsimp only at hread
  split at hread
  · split at hread
    · cases hread
      exact hs.continueValue _ _ _
    · exact (hdeep _).openLine htext (fun _ => (hdeep _).openOption htext) hread
  · exact (hdeep _).openLine htext (fun _ => (hdeep _).openOption htext) hread
  · exact (hdeep _).openLine htext (by rintro _ ⟨⟩) hread

theorem OneLine.readLine (hs : s.OneLine) {number : Nat} {line : List Char} (hline : '\n' ∉ Text.trim line)
    (hread : s.readLine number line = .ok t) : t.OneLine := by
  unfold State.readLine at hread
  dsimp only at hread
  split at hread
  · cases hread
    exact hs
  · split at hread
    · split at hread
      · cases hread
        exact hs.continueValue _ _ _
      · cases hread
        exact hs
    · exact hs.readText hline hread

theorem OneLine.readLines (hs : s.OneLine) {number : Nat} {lines : List (List Char)}
    (hlines : ∀ line ∈ lines, '\n' ∉ Text.trim line) (hread : s.readLines number lines = .ok t) : t.OneLine := by
  induction lines generalizing s number with
  | nil =>
    cases hread
    exact hs
  | cons line lines ih =>
    obtain ⟨hline, hrest⟩ := List.forall_mem_cons.mp hlines
    rw [State.readLines] at hread
    split at hread
    · rename_i next hnext
      exact ih (hs.readLine hline hnext) hrest hread
    · cases hread

end State

/-- No name in a configuration holds a line feed. -/
theorem items_oneLine {text : List Char} {doc : Document} (hparse : parse text = .ok doc) :
    ∀ item ∈ doc.items, '\n' ∉ item.1 ∧ '\n' ∉ item.2.1 := by
  have hdoc : OneLineNames doc.defaults ∧ ∀ sec ∈ doc.sections, '\n' ∉ sec.name ∧ OneLineNames sec.entries := by
    unfold parse at hparse
    split at hparse
    · cases hparse
    · rename_i s hread
      have hs : s.OneLine := State.start_oneLine.readLines (fun _ => Text.feed_not_mem_trim) hread
      split at hparse
      · cases hparse
        exact ⟨hs.defaults, hs.sections⟩
      · cases hparse
  intro item hitem
  obtain ⟨sec, hsec, hitem⟩ := List.mem_flatMap.mp hitem
  obtain ⟨entry, hentry, rfl⟩ := List.mem_map.mp hitem
  obtain ⟨hname, hentries⟩ := hdoc.2 sec hsec
  refine ⟨hname, ?_⟩
  obtain hshared | hown := List.mem_append.mp hentry
  · obtain ⟨default, hdefault, rfl⟩ := List.mem_map.mp hshared
    exact hdoc.1 default hdefault
  · obtain ⟨own, hmem, rfl⟩ := List.mem_map.mp (List.mem_of_mem_filter hown)
    exact hentries own hmem

end ListingEditor.Ini
