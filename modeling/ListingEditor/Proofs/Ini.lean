import ListingEditor.Ini
import ListingEditor.Proofs.Text.Blank
import ListingEditor.Proofs.Text.Lines
import Mathlib.Data.List.Nodup

/-!
Configurations that have been written are read back: section by section, every option with its value.
-/

namespace ListingEditor.Ini

open Text (Solid isSpace)

/-- A section as it is written: its name, and its options with their values. -/
structure Block where
  name : List Char
  options : List (List Char × List Char)

/-- The characters of which the names of options can be made: no white space, no delimiter, and none that starts a
comment or a header. -/
def isKeyChar (c : Char) : Bool := !isSpace c && !isDelimiter c && c != '#' && c != ';' && c != '['

/-- The name of an option that can be written. -/
structure IsKey (key : List Char) : Prop where
  ne_nil : key ≠ []
  chars : ∀ c ∈ key, isKeyChar c = true

instance (key : List Char) : Decidable (IsKey key) :=
  decidable_of_iff (key ≠ [] ∧ key.all isKeyChar = true)
    ⟨fun hkey => ⟨hkey.1, List.all_eq_true.mp hkey.2⟩,
      fun hkey => ⟨hkey.ne_nil, List.all_eq_true.mpr hkey.chars⟩⟩

/-- A value that can be written on one line. -/
structure IsValue (value : List Char) : Prop where
  solid : Solid value
  oneLine : '\n' ∉ value

/-- The header of a section. -/
def headerLine (name : List Char) : List Char := '[' :: name ++ [']']

/-- The line of an option. -/
def optionLine (option : List Char × List Char) : List Char := option.1 ++ [' ', '=', ' '] ++ option.2

namespace Block

/-- A section that can be written. -/
structure Writable (block : Block) : Prop where
  name_ne_nil : block.name ≠ []
  name_oneLine : '\n' ∉ block.name
  name_ne_default : block.name ≠ defaultName
  keys : ∀ option ∈ block.options, IsKey option.1
  values : ∀ option ∈ block.options, IsValue option.2
  distinct : (block.options.map Prod.fst).Nodup

/-- The header of a section, and its options. -/
def body (block : Block) : List (List Char) := headerLine block.name :: block.options.map optionLine

/-- What a reader finds in a section. -/
def items (block : Block) : List (List Char × List Char × List Char) :=
  block.options.map fun option => (block.name, option)

end Block

/-- A configuration: an empty line stands behind every section. -/
def write (blocks : List Block) : List Char :=
  ['\n'].intercalate (blocks.flatMap fun block => block.body ++ [[]])

theorem header?_headerLine {name : List Char} (hname : name ≠ []) : header? (headerLine name) = some name := by
  simp [header?, headerLine, hname]

theorem solid_headerLine (name : List Char) : Solid (headerLine name) := by
  refine ⟨List.cons_ne_nil _ _, ?_, ?_⟩
  · rintro c ⟨⟩
    rfl
  · intro c hc
    rw [headerLine, List.getLast?_concat, Option.some.injEq] at hc
    subst hc
    rfl

theorem IsKey.solid {key : List Char} (hkey : IsKey key) : Solid key := by
  apply Text.solid_of_forall hkey.ne_nil
  intro c hc
  have hchar := hkey.chars c hc
  simp only [isKeyChar, Bool.and_eq_true, Bool.not_eq_true'] at hchar
  exact hchar.1.1.1.1

theorem isValue_of_forall {value : List Char} (hne : value ≠ []) (hspace : ∀ c ∈ value, isSpace c = false) :
    IsValue value :=
  ⟨Text.solid_of_forall hne hspace, fun hfeed => nomatch hspace '\n' hfeed⟩

theorem solid_optionLine {option : List Char × List Char} (hkey : IsKey option.1) (hvalue : IsValue option.2) :
    Solid (optionLine option) := hkey.solid.append _ hvalue.solid

/-- The line of an option is neither a header nor a comment, and is divided where it was put together. -/
theorem option?_optionLine {option : List Char × List Char} (hkey : IsKey option.1) (hvalue : IsValue option.2) :
    option? (optionLine option) = some option := by
  have hkeyChars : ∀ c ∈ option.1 ++ [' '], (!isDelimiter c) = true := by
    intro c hc
    rcases List.mem_append.mp hc with hin | hspace
    · have hchar := hkey.chars c hin
      simp only [isKeyChar, Bool.and_eq_true] at hchar
      exact hchar.1.1.1.2
    · rw [List.mem_singleton.mp hspace]
      rfl
  have hline : optionLine option = (option.1 ++ [' ']) ++ '=' :: ' ' :: option.2 := by simp [optionLine]
  have hvalueTrim : Text.trim (' ' :: option.2) = option.2 := by
    have hstart : Text.trimStart isSpace (' ' :: option.2) = Text.trimStart isSpace option.2 :=
      List.dropWhile_cons_of_pos rfl
    rw [Text.trim, hstart, ← Text.trim, hvalue.solid.trim_eq]
  rw [option?, hline, List.takeWhile_append_of_pos hkeyChars, List.dropWhile_append_of_pos hkeyChars,
    List.takeWhile_cons_of_neg (by decide), List.dropWhile_cons_of_neg (by decide), List.append_nil]
  dsimp only
  rw [Text.trimEnd_concat _ rfl, hkey.solid.trimEnd_eq, hvalueTrim]

theorem optionLine_head {option : List Char × List Char} (hkey : IsKey option.1) {c : Char}
    (hc : c = '#' ∨ c = ';' ∨ c = '[') : (optionLine option).head? ≠ some c := by
  intro hhead
  rw [optionLine, List.append_assoc, List.head?_append_of_ne_nil _ hkey.ne_nil] at hhead
  have hchar := hkey.chars c (List.mem_of_mem_head? hhead)
  rcases hc with rfl | rfl | rfl <;> cases hchar

/-- The option that an entry holds. -/
def Entry.option (entry : Entry) : List Char × List Char := (entry.name, entry.value)

/-- What has been read of a section. -/
def Section.block (s : Section) : Block := ⟨s.name, s.entries.map Entry.option⟩

/-- A state in which some sections have been read, the last of which is still open. -/
structure State.Holds (s : State) (blocks : List Block) : Prop where
  sections : s.sections.map Section.block = blocks
  current : s.current = blocks.getLast?.map (·.name)
  seen : ∀ name key, (name, key) ∈ s.seen →
    ∃ block ∈ blocks, block.name = name ∧ key ∈ block.options.map Prod.fst
  defaults : s.defaults = []
  bad : s.bad = []

theorem State.start_holds : State.start.Holds [] := ⟨rfl, rfl, nofun, rfl, rfl⟩

theorem Entry.value_concat_nil (entry : Entry) :
    { entry with lines := entry.lines ++ [[]] }.value = entry.value := by
  have hjoined (line : List Char) (lines : List (List Char)) :
      ['\n'].intercalate (line :: lines ++ [[]]) = ['\n'].intercalate (line :: lines) ++ ['\n'] := by
    induction lines generalizing line with
    | nil => simp [List.intercalate_cons_cons]
    | cons next lines ih =>
      rw [List.cons_append, List.cons_append, List.intercalate_cons_cons, ← List.cons_append, ih,
        List.intercalate_cons_cons, List.append_assoc, List.append_assoc, List.append_assoc]
  unfold Entry.value
  cases entry.lines with
  | nil => rfl
  | cons line lines => rw [hjoined, Text.trimEnd_concat _ rfl]

theorem State.updateEntries_eq {s : State} {name : List Char} (hdefault : name ≠ defaultName)
    (f : List Entry → List Entry) :
    s.updateEntries name f = { s with
      sections := s.sections.map fun sec =>
        if sec.name = name then { sec with entries := f sec.entries } else sec } := if_neg hdefault

/-- What is changed in a section is changed in what has been read of it. -/
theorem map_block_update (sections : List Section) (name : List Char) {f : List Entry → List Entry}
    {g : List (List Char × List Char) → List (List Char × List Char)}
    (hchange : ∀ entries : List Entry, (f entries).map Entry.option = g (entries.map Entry.option)) :
    (sections.map fun sec => if sec.name = name then { sec with entries := f sec.entries } else sec).map
        Section.block =
      (sections.map Section.block).map fun block =>
        if block.name = name then { block with options := g block.options } else block := by
  rw [List.map_map, List.map_map]
  apply List.map_congr_left
  intro sec _
  rw [Function.comp_apply, Function.comp_apply]
  by_cases hsec : sec.name = name
  · rw [if_pos hsec, if_pos (show sec.block.name = name from hsec)]
    exact congrArg (Block.mk sec.name) (hchange sec.entries)
  · rw [if_neg hsec, if_neg (show ¬ sec.block.name = name from hsec)]

/-- A line with a text on it is read by that text, and stands at no depth. -/
theorem State.readLine_of_solid {text : List Char} (hsolid : Solid text) (s : State) (number : Nat)
    (hcomment : isComment text = false) :
    s.readLine number (text ++ ['\n']) = s.readText number (text ++ ['\n']) text := by
  rw [State.readLine, hsolid.trim_line]
  simp only [hcomment, List.isEmpty_eq_false_iff.mpr hsolid.ne_nil, Bool.false_eq_true, if_false]

theorem State.readText_header {text name : List Char} (hsolid : Solid text)
    (hheader : header? text = some name) (s : State) (number : Nat) :
    s.readText number (text ++ ['\n']) text = { s with indent := 0 }.openSection number name := by
  rw [State.readText, hsolid.takeWhile_append]
  simp only [hheader, List.length_nil, Nat.not_lt_zero, if_false]
  split <;> rfl

theorem State.readText_option {text name : List Char} (hsolid : Solid text) (hheader : header? text = none)
    {s : State} (hcurrent : s.current = some name) (number : Nat) :
    s.readText number (text ++ ['\n']) text =
      { s with indent := 0 }.openOption number name (text ++ ['\n']) text := by
  rw [State.readText, hsolid.takeWhile_append, hcurrent]
  cases s.option <;> simp only [hheader, List.length_nil, Nat.not_lt_zero, if_false]

/-- An empty line changes no value. -/
theorem State.Holds.readLine_blank {s : State} {blocks : List Block} (hholds : s.Holds blocks) (number : Nat) :
    ∃ t, s.readLine number ['\n'] = .ok t ∧ t.Holds blocks := by
  have hcontinue (name key : List Char) : (s.continueValue name key []).Holds blocks := by
    have hsame (entries : List Entry) :
        (entries.map fun entry =>
          if entry.name = key then { entry with lines := entry.lines ++ [[]] } else entry).map Entry.option =
          id (entries.map Entry.option) := by
      rw [List.map_map]
      apply List.map_congr_left
      intro entry _
      rw [Function.comp_apply]
      split
      · exact congrArg (entry.name, ·) entry.value_concat_nil
      · rfl
    by_cases hdefault : name = defaultName
    · rw [State.continueValue, State.updateEntries, if_pos hdefault]
      exact ⟨hholds.sections, hholds.current, hholds.seen, by simp [hholds.defaults], hholds.bad⟩
    · rw [State.continueValue, State.updateEntries_eq hdefault]
      refine ⟨?_, hholds.current, hholds.seen, hholds.defaults, hholds.bad⟩
      rw [map_block_update s.sections name hsame, hholds.sections]
      simp
  have htrim : Text.trim ['\n'] = [] := rfl
  have hcomment : isComment [] = false := rfl
  cases hcurrent : s.current with
  | none => exact ⟨s, by simp [State.readLine, htrim, hcomment, hcurrent], hholds⟩
  | some name =>
    cases hoption : s.option with
    | none => exact ⟨s, by simp [State.readLine, htrim, hcomment, hcurrent, hoption], hholds⟩
    | some key =>
      refine ⟨s.continueValue name key [], ?_, hcontinue name key⟩
      simp [State.readLine, htrim, hcomment, hcurrent, hoption]

theorem State.Holds.readLine_header {s : State} {blocks : List Block} (hholds : s.Holds blocks)
    {name : List Char} (hname : name ≠ []) (hdefault : name ≠ defaultName)
    (hfresh : ∀ block ∈ blocks, block.name ≠ name) (number : Nat) :
    ∃ t, s.readLine number (headerLine name ++ ['\n']) = .ok t ∧ t.Holds (blocks ++ [⟨name, []⟩]) := by
  have hnone : s.sections.any (·.name == name) = false := by
    rw [List.any_eq_false]
    intro sec hsec
    have hblock : sec.name ≠ name := hfresh sec.block (hholds.sections ▸ List.mem_map_of_mem hsec)
    simpa using hblock
  rw [State.readLine_of_solid (solid_headerLine name) s number rfl,
    State.readText_header (solid_headerLine name) (header?_headerLine hname), State.openSection]
  simp only [hnone, Bool.false_eq_true, if_false, hdefault]
  refine ⟨_, rfl, ?_, ?_, ?_, hholds.defaults, hholds.bad⟩
  · rw [List.map_append, hholds.sections]
    rfl
  · rw [List.getLast?_concat]
    rfl
  · intro name' key hseen
    obtain ⟨block, hblock, hfound⟩ := hholds.seen name' key hseen
    exact ⟨block, List.mem_append_left _ hblock, hfound⟩

theorem State.Holds.readLine_option {s : State} {front : List Block} {name : List Char}
    {options : List (List Char × List Char)} {option : List Char × List Char}
    (hholds : s.Holds (front ++ [⟨name, options⟩])) (hdefault : name ≠ defaultName)
    (hfresh : ∀ block ∈ front, block.name ≠ name) (hkey : IsKey option.1) (hvalue : IsValue option.2)
    (hnew : option.1 ∉ options.map Prod.fst) (number : Nat) :
    ∃ t, s.readLine number (optionLine option ++ ['\n']) = .ok t ∧
      t.Holds (front ++ [⟨name, options ++ [option]⟩]) := by
  have hsolid := solid_optionLine hkey hvalue
  have hcomment : isComment (optionLine option) = false := by
    simp [isComment, optionLine_head hkey]
  have hheader : header? (optionLine option) = none := by
    unfold header?
    split
    · rename_i rest hline
      exact absurd (hline ▸ rfl) (optionLine_head hkey (.inr (.inr rfl)))
    · rfl
  have hcurrent : s.current = some name := by
    rw [hholds.current, List.getLast?_concat]
    rfl
  have hunseen : s.seen.contains (name, option.1) = false := by
    rw [← Bool.not_eq_true, List.contains_iff_mem]
    intro hseen
    obtain ⟨block, hblock, hname, hmem⟩ := hholds.seen name option.1 hseen
    rcases List.mem_append.mp hblock with hfront | hlast
    · exact hfresh block hfront hname
    · rw [List.mem_singleton.mp hlast] at hmem
      exact hnew hmem
  have hentry : (Entry.mk option.1 [option.2]).option = option := by
    have hread : (Entry.mk option.1 [option.2]).value = option.2 := by
      rw [Entry.value, List.intercalate_singleton, hvalue.solid.trimEnd_eq]
    rw [Entry.option, hread]
  have hsections : (s.sections.map fun sec => if sec.name = name then
      { sec with entries := sec.entries ++ [Entry.mk option.1 [option.2]] } else sec).map Section.block =
      front ++ [⟨name, options ++ [option]⟩] := by
    have hadd (entries : List Entry) : (entries ++ [Entry.mk option.1 [option.2]]).map Entry.option =
        entries.map Entry.option ++ [option] := by rw [List.map_append, List.map_singleton, hentry]
    have hfront : front.map (fun block => if block.name = name then
        { block with options := block.options ++ [option] } else block) = front :=
      (List.map_congr_left fun block hblock => if_neg (hfresh block hblock)).trans front.map_id
    refine (map_block_update s.sections name (g := (· ++ [option])) hadd).trans ?_
    rw [hholds.sections, List.map_append, hfront]
    exact congrArg (front ++ [·]) (if_pos rfl)
  rw [State.readLine_of_solid hsolid s number hcomment, State.readText_option hsolid hheader hcurrent,
    State.openOption, option?_optionLine hkey hvalue]
  simp only [hunseen, List.isEmpty_eq_false_iff.mpr hkey.ne_nil, Bool.false_eq_true, if_false]
  rw [State.updateEntries_eq hdefault]
  refine ⟨_, rfl, ?_, ?_, ?_, hholds.defaults, hholds.bad⟩
  · exact hsections
  · rw [List.getLast?_concat]
    exact hcurrent
  · intro name' key hseen
    rcases List.mem_cons.mp hseen with hlast | hearlier
    · obtain ⟨rfl, rfl⟩ := Prod.mk.inj hlast
      exact ⟨_, List.mem_append_right _ (List.mem_singleton_self _), rfl, by simp⟩
    · obtain ⟨block, hblock, hname, hmem⟩ := hholds.seen name' key hearlier
      rcases List.mem_append.mp hblock with hfront | hlast
      · exact ⟨block, List.mem_append_left _ hfront, hname, hmem⟩
      · obtain rfl := List.mem_singleton.mp hlast
        refine ⟨_, List.mem_append_right _ (List.mem_singleton_self _), hname, ?_⟩
        rw [List.map_append]
        exact List.mem_append_left _ hmem

theorem readLines_append {s t : State} {number : Nat} {lines : List (List Char)}
    (hread : s.readLines number lines = .ok t) (more : List (List Char)) :
    s.readLines number (lines ++ more) = t.readLines (number + lines.length) more := by
  induction lines generalizing s number with
  | nil =>
    obtain rfl := Except.ok.inj hread
    rfl
  | cons line lines ih =>
    rw [List.cons_append, State.readLines]
    rw [State.readLines] at hread
    cases hline : s.readLine number line with
    | error fault =>
      rw [hline] at hread
      cases hread
    | ok next =>
      rw [hline] at hread
      simp only [List.length_cons, ih hread, Nat.add_right_comm number 1, Nat.add_assoc]

/-- Lines that take a state that holds some sections to one that holds others. -/
def Reads (blocks : List Block) (lines : List (List Char)) (blocks' : List Block) : Prop :=
  ∀ (s : State) (number : Nat), s.Holds blocks →
    ∃ t, s.readLines number (lines.map (· ++ ['\n'])) = .ok t ∧ t.Holds blocks'

theorem Reads.append {blocks blocks' blocks'' : List Block} {lines more : List (List Char)}
    (hfirst : Reads blocks lines blocks') (hnext : Reads blocks' more blocks'') :
    Reads blocks (lines ++ more) blocks'' := by
  intro s number hholds
  obtain ⟨t, hread, hholds'⟩ := hfirst s number hholds
  obtain ⟨u, hread', hholds''⟩ := hnext t (number + lines.length) hholds'
  refine ⟨u, ?_, hholds''⟩
  rw [List.map_append, readLines_append hread, List.length_map, hread']

theorem reads_nil (blocks : List Block) : Reads blocks [] blocks := fun s _ hholds => ⟨s, rfl, hholds⟩

/-- The options of a section, one after the other. -/
theorem reads_options {front : List Block} {name : List Char} (hdefault : name ≠ defaultName)
    (hfresh : ∀ block ∈ front, block.name ≠ name) {options more : List (List Char × List Char)}
    (hkeys : ∀ option ∈ more, IsKey option.1) (hvalues : ∀ option ∈ more, IsValue option.2)
    (hdistinct : ((options ++ more).map Prod.fst).Nodup) :
    Reads (front ++ [⟨name, options⟩]) (more.map optionLine) (front ++ [⟨name, options ++ more⟩]) := by
  induction more generalizing options with
  | nil =>
    rw [List.append_nil]
    exact reads_nil _
  | cons option more ih =>
    obtain ⟨hkey, hkeys⟩ := List.forall_mem_cons.mp hkeys
    obtain ⟨hvalue, hvalues⟩ := List.forall_mem_cons.mp hvalues
    have hnew : option.1 ∉ options.map Prod.fst := by
      rw [List.map_append, List.map_cons, List.nodup_middle, List.nodup_cons] at hdistinct
      exact fun hmem => hdistinct.1 (List.mem_append_left _ hmem)
    have hfirst : Reads (front ++ [⟨name, options⟩]) [optionLine option]
        (front ++ [⟨name, options ++ [option]⟩]) := by
      intro s number hholds
      obtain ⟨t, hread, hholds'⟩ := hholds.readLine_option hdefault hfresh hkey hvalue hnew number
      exact ⟨t, by rw [List.map_singleton, State.readLines, hread]; rfl, hholds'⟩
    have hmove : options ++ option :: more = options ++ [option] ++ more := by simp
    rw [hmove] at hdistinct ⊢
    exact hfirst.append (ih hkeys hvalues hdistinct)

theorem Block.Writable.reads {block : Block} (hwritable : block.Writable) {blocks : List Block}
    (hfresh : ∀ other ∈ blocks, other.name ≠ block.name) : Reads blocks block.body (blocks ++ [block]) := by
  have hheader : Reads blocks [headerLine block.name] (blocks ++ [⟨block.name, []⟩]) := by
    intro s number hholds
    obtain ⟨t, hread, hholds'⟩ :=
      hholds.readLine_header hwritable.name_ne_nil hwritable.name_ne_default hfresh number
    exact ⟨t, by rw [List.map_singleton, State.readLines, hread]; rfl, hholds'⟩
  exact hheader.append
    (reads_options hwritable.name_ne_default hfresh hwritable.keys hwritable.values hwritable.distinct)

theorem reads_blank (blocks : List Block) : Reads blocks [[]] blocks := by
  intro s number hholds
  obtain ⟨t, hread, hholds'⟩ := hholds.readLine_blank number
  exact ⟨t, by rw [List.map_singleton, List.nil_append, State.readLines, hread]; rfl, hholds'⟩

theorem fresh_of_nodup {blocks more : List Block} {block : Block}
    (hdistinct : ((blocks ++ block :: more).map Block.name).Nodup) :
    ∀ other ∈ blocks, other.name ≠ block.name := by
  intro other hother hname
  rw [List.map_append, List.map_cons, List.nodup_middle, List.nodup_cons] at hdistinct
  exact hdistinct.1 (List.mem_append_left _ (hname ▸ List.mem_map_of_mem hother))

theorem reads_blocks {blocks more : List Block} (hwritable : ∀ block ∈ more, block.Writable)
    (hdistinct : ((blocks ++ more).map Block.name).Nodup) :
    Reads blocks (more.flatMap fun block => block.body ++ [[]]) (blocks ++ more) := by
  induction more generalizing blocks with
  | nil =>
    rw [List.append_nil]
    exact reads_nil _
  | cons block more ih =>
    obtain ⟨hblock, hmore⟩ := List.forall_mem_cons.mp hwritable
    have hfresh := fresh_of_nodup hdistinct
    have hmove : blocks ++ block :: more = blocks ++ [block] ++ more := by simp
    rw [hmove] at hdistinct ⊢
    rw [List.flatMap_cons]
    exact ((hblock.reads hfresh).append (reads_blank _)).append (ih hmore hdistinct)

theorem items_of_holds {s : State} {blocks : List Block} (hholds : s.Holds blocks) :
    (Document.mk s.defaults s.sections).items = blocks.flatMap Block.items := by
  have hentries (sec : Section) : (Document.mk s.defaults s.sections).entriesOf sec = sec.block.options := by
    rw [Document.entriesOf, hholds.defaults]
    exact List.filter_eq_self.mpr fun _ _ => rfl
  simp only [Document.items, hentries, ← hholds.sections, List.flatMap_map]
  rfl

theorem Block.Writable.oneLine {block : Block} (hwritable : block.Writable) :
    ∀ line ∈ block.body, '\n' ∉ line := by
  intro line hline
  rcases List.mem_cons.mp hline with rfl | hoption
  · simpa [headerLine] using hwritable.name_oneLine
  · obtain ⟨option, hmem, rfl⟩ := List.mem_map.mp hoption
    have hkey : '\n' ∉ option.1 := fun hchar => nomatch (hwritable.keys option hmem).chars _ hchar
    simpa [optionLine, hkey] using (hwritable.values option hmem).oneLine

/-- Reading a configuration gives back what was written to it. -/
theorem parse_write {blocks : List Block} (hwritable : ∀ block ∈ blocks, block.Writable)
    (hdistinct : (blocks.map Block.name).Nodup) :
    ∃ doc, parse (write blocks) = .ok doc ∧ doc.items = blocks.flatMap Block.items := by
  -- no line feed stands behind the empty line at the end, so it is not read
  have hlines : ∃ lines, Text.feedLines (write blocks) = lines.map (· ++ ['\n']) ∧ Reads [] lines blocks := by
    obtain rfl | ⟨front, last, rfl⟩ := List.eq_nil_or_concat blocks
    · exact ⟨[], rfl, reads_nil []⟩
    · rw [List.concat_eq_append] at hwritable hdistinct ⊢
      have hfront : ∀ block ∈ front, block.Writable := fun block hmem => hwritable block (by simp [hmem])
      have hlast : last.Writable := hwritable last (by simp)
      refine ⟨(front.flatMap fun block => block.body ++ [[]]) ++ last.body, ?_, ?_⟩
      · rw [write, List.flatMap_append, List.flatMap_singleton, ← List.append_assoc,
          Text.feedLines_intercalate]
        intro line hline
        rcases List.mem_append.mp hline with hearlier | hbody
        · obtain ⟨block, hblock, hmem⟩ := List.mem_flatMap.mp hearlier
          rcases List.mem_append.mp hmem with hbody | hblank
          · exact (hfront block hblock).oneLine line hbody
          · rw [List.mem_singleton.mp hblank]
            exact List.not_mem_nil
        · exact hlast.oneLine line hbody
      · have hnames : ((([] : List Block) ++ front).map Block.name).Nodup := by
          rw [List.map_append] at hdistinct
          exact (List.nodup_append.mp hdistinct).1
        exact (reads_blocks hfront hnames).append (hlast.reads (fresh_of_nodup hdistinct))
  obtain ⟨lines, hfeed, hreads⟩ := hlines
  obtain ⟨t, hread, hholds⟩ := hreads State.start 1 State.start_holds
  refine ⟨⟨t.defaults, t.sections⟩, ?_, items_of_holds hholds⟩
  rw [parse, hfeed, hread]
  simp only [hholds.bad, List.isEmpty_nil, if_true]

end ListingEditor.Ini
