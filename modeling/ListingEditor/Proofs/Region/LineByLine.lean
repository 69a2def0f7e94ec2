import ListingEditor.Proofs.Indent.Line
import ListingEditor.Proofs.Region.Reindenting
import ListingEditor.Proofs.Region.Selecting
import ListingEditor.Proofs.Session.Balance

/-!
Reindenting a selection line by line. The lines that are reindented reach from the one that holds the start of the
selection to the one that holds its end. That is one line more than the selection covers if it ends where a line
starts.
-/

namespace ListingEditor

open Buffer (Uniform rowText)
open Indent (Columns)
open Preference (Settings)

section Changed

variable {α ε : Type} {change : α → Except ε α} {l l' : List α}

theorem ChangedUpTo.forall₂ (hchanged : ChangedUpTo change l (.ok ()) l') :
    List.Forall₂ (fun a b => change a = .ok b) l l' := forall₂_of_mapM hchanged.mapM_eq

theorem ChangedUpTo.exists_stop {e : ε} (hchanged : ChangedUpTo change l (.error e) l') :
    ∃ done a left new, l = done ++ a :: left ∧ l' = new ++ a :: left ∧ change a = .error e ∧
      List.Forall₂ (fun a b => change a = .ok b) done new := by
  generalize hresult : Except.error e = result at hchanged
  induction hchanged with
  | nil => cases hresult
  | @cons first second l l' result hfirst _ ih =>
    obtain ⟨done, a, left, new, rfl, rfl, hfails, hdone⟩ := ih hresult
    exact ⟨first :: done, a, left, second :: new, rfl, rfl, hfails, .cons hfirst hdone⟩
  | @stop a e' hfails l =>
    cases hresult
    exact ⟨[], a, l, [], rfl, rfl, hfails, .nil⟩

end Changed

/-- If there is memory for every indentation, every line has one. -/
theorem Indent.Columns.Fits.reindented_ne_error {columns : Columns} {b : Buffer} {width : Int} (hsound : columns.Sound)
    (hfits : columns.Fits b) (hwidth : b.tabWidth = some width) (hpositive : 1 ≤ width) (line : List Char)
    (e : EditError) : columns.reindented b line ≠ .error e := by
  intro hfails
  obtain ⟨hlower, hupper⟩ := columns.column_bounds hsound line
  have hcomment := hfits.comment
  have hcode := hfits.code
  obtain ⟨blanks, hblanks⟩ := Buffer.indentString_isOk hwidth hpositive ⟨hlower, by omega⟩
    fun htabs => hfits.tabs htabs width hwidth
  cases (Columns.reindented_eq_error hfails).symm.trans hblanks

/-- The columns of a session in which all preferences have their defaults. -/
theorem Mode.columns_of_defaults {columns : Columns}
    (hindenter : (Mode.listing.sessionOf (.defaults Mode.listingSchema) [] "default").setup.indenter =
      .listing columns) : columns = ⟨['#'], 32, 8⟩ := by
  have hdefault : (Mode.listing.sessionOf (.defaults Mode.listingSchema) [] "default").setup.indenter =
      .listing ⟨['#'], 32, 8⟩ := by decide +kernel
  exact (Indenter.listing.inj (hdefault.symm.trans hindenter)).symm

namespace Action

/-- The tab key reindents what is selected. -/
theorem reindent_effect {setup : Setup} {columns : Columns} (hindenter : setup.indenter = .listing columns)
    (count : Int) {b b' : Buffer} {result : Except EditError Unit}
    (heffect : (Region.reindent (.listing columns)).effect b = (result, b')) :
    ((reindent.perform setup count).run b).result = result.map (fun _ => .absent) ∧
      ((reindent.perform setup count).run b).state = b' := by
  rw [← hindenter] at heffect
  have hperform : (reindent.perform setup count).effect b =
      (Region.reindent setup.indenter >>= fun _ => pure .absent : Command Value).effect b := rfl
  rw [← Prod.mk.injEq]
  refine hperform.trans ?_
  cases result with
  | error e => exact Step.effect_bind_of_error heffect
  | ok _ => exact Step.effect_bind_of_ok heffect

/-- Reindenting a selection is reindenting its lines. In a buffer whose lines all end alike, each line from the one that
holds the start of the selection to the one that holds its end is exchanged for its text behind the blanks that belong
to it, and the other lines stay, with all ends of lines. It fails for a line for whose blanks there is no memory; then
the lines before have been exchanged, and that line and those behind it have not. Either way it is one group of
changes. -/
theorem reindent_lines {settings : Settings} {plugins : List Plugin} {platform : String} {session : Session}
    {b : Buffer} {ending : List Char} {lines : List (List Char)} {width : Int}
    (hsession : (Mode.listing.activate settings plugins platform).result = .ok session)
    (huniform : b.Uniform ending lines) (hwidth : b.tabWidth = some width) (hpositive : 1 ≤ width)
    (hanchor : 0 ≤ b.anchor) (hcaret : 0 ≤ b.caret) (hselected : b.anchor ≠ b.caret) (count : Int) :
    let outcome := (reindent.perform session.setup count).run b
    ∃ (columns : Columns) (front middle rear new : List (List Char)), session.setup.indenter = .listing columns ∧
      lines = front ++ middle ++ rear ∧ b.lineOf b.selection.1 = front.length ∧
      b.lineOf b.selection.2 + 1 = (front ++ middle).length ∧
      outcome.state.Uniform ending (front ++ new ++ rear) ∧
      (columns.Fits b → outcome.result = .ok .absent) ∧
      (outcome.result = .ok .absent → List.Forall₂ (fun line new => columns.reindented b line = .ok new) middle new) ∧
      (∀ e, outcome.result = .error e → ∃ done line left done', middle = done ++ line :: left ∧
        new = done' ++ line :: left ∧ columns.reindented b line = .error e ∧
        List.Forall₂ (fun line new => columns.reindented b line = .ok new) done done') ∧
      outcome.state.undoLevel = b.undoLevel ∧
      (b.undoLevel = 0 → outcome.state.undoActions = b.undoActions + 1) := by
  intro outcome
  obtain ⟨columns, hindenter, hsound⟩ := Mode.indenter_of_activate rfl hsession
  obtain ⟨front, middle, rear, rfl, hspans⟩ := Region.exists_spans huniform hanchor hcaret hselected
  obtain ⟨result, new, b', heffect, hchanged, hdone, -, -⟩ :=
    (Region.tracks_uniform columns ending).reindent hspans.uniform (Int.le_trans (Int.natCast_nonneg _) hspans.start)
      hspans.selected hspans.first hspans.last
  obtain ⟨hresult, hstate⟩ := reindent_effect hindenter count heffect
  obtain ⟨hlevel, hactions, -⟩ := edits_reindent session.setup count b
  have houtcome : outcome.result = result.map (fun _ => .absent) := hresult
  have hafter : outcome.state = b' := hstate
  refine ⟨columns, front, middle, rear, new, hindenter, rfl, hspans.first, hspans.last, hafter ▸ hdone, ?_, ?_, ?_,
    hlevel, fun hzero => by rwa [if_pos hzero] at hactions⟩
  · intro hfits
    rw [houtcome]
    cases result with
    | ok _ => rfl
    | error e =>
      obtain ⟨_, line, _, _, _, _, hfails, _⟩ := hchanged.exists_stop
      exact absurd hfails (hfits.reindented_ne_error hsound hwidth hpositive line e)
  · intro hok
    rw [houtcome] at hok
    cases result with
    | ok _ => exact hchanged.forall₂
    | error e => cases hok
  · intro e herror
    rw [houtcome] at herror
    cases result with
    | ok _ => cases herror
    | error e' =>
      cases herror
      exact hchanged.exists_stop

/-- A label behind blanks, an instruction and a comment, with a selection that ends in the instruction. -/
def labelCodeComment : Buffer :=
  { Buffer.ofText "\t lp:\r\nnop\r\n#".toList (some 4) true 0 1024 with caret := 1, anchor := 9 }

theorem reindent_lines_labelCodeComment :
    ∃ session, (Mode.listing.activate (.defaults Mode.listingSchema) [] "default").result = .ok session ∧
      let outcome := (reindent.perform session.setup 1).run labelCodeComment
      outcome.result = .ok .absent ∧ outcome.state.text = "lp:\r\n\t\tnop\r\n#".toList ∧
        outcome.state.undoActions = 1 := by
  have hsession : (Mode.listing.activate (.defaults Mode.listingSchema) [] "default").result =
      .ok (Mode.listing.sessionOf (.defaults Mode.listingSchema) [] "default") := rfl
  have huniform : labelCodeComment.Uniform ['\r', '\n'] ["\t lp:".toList, "nop".toList, "#".toList] :=
    ⟨by decide, by decide, .pair, by decide⟩
  obtain ⟨columns, front, middle, rear, new, hindenter, hlines, hfirst, hlast, hstate, hfits, hok, -, -, hactions⟩ :=
    reindent_lines hsession huniform rfl (by decide) (by decide) (by decide) (by decide) 1
  obtain rfl := Mode.columns_of_defaults hindenter
  have hstart : labelCodeComment.lineOf labelCodeComment.selection.1 = 0 := by decide
  have hstop : labelCodeComment.lineOf labelCodeComment.selection.2 = 1 := by decide
  obtain rfl : front = [] := List.eq_nil_of_length_eq_zero (by omega)
  rw [hstop, List.nil_append] at hlast
  obtain ⟨rfl, rfl⟩ := List.append_inj
    (show ["\t lp:".toList, "nop".toList] ++ ["#".toList] = middle ++ rear from hlines) (by simp; omega)
  have hresult := hfits ⟨by decide, by decide, fun _ width hwidth => by cases hwidth; decide⟩
  have hnew : new = ["lp:".toList, "\t\tnop".toList] := by
    obtain _ | ⟨hlabel, _ | ⟨hcode, ⟨⟩⟩⟩ := hok hresult
    have hlabel' : Columns.reindented ⟨['#'], 32, 8⟩ labelCodeComment "\t lp:".toList = .ok "lp:".toList := by decide
    have hcode' : Columns.reindented ⟨['#'], 32, 8⟩ labelCodeComment "nop".toList = .ok "\t\tnop".toList := by decide
    rw [Except.ok.inj (hlabel.symm.trans hlabel'), Except.ok.inj (hcode.symm.trans hcode')]
  subst hnew
  exact ⟨_, hsession, hresult, hstate.text.trans (by decide), hactions rfl⟩

/-- Reindenting a selection can fail. -/
theorem reindent_wideTabSelection :
    let b := Indenter.wideTabLine.select 0 5
    ∃ session, (Mode.listing.activate (.defaults Mode.listingSchema) [] "default").result = .ok session ∧
      b.Uniform ['\n'] ["  nop".toList] ∧ (∃ width, b.tabWidth = some width ∧ 1 ≤ width) ∧
      (0 ≤ b.anchor ∧ b.anchor < b.caret ∧ b.caret ≤ b.length) ∧
      Columns.column ⟨['#'], 32, 8⟩ "  nop".toList = 8 ∧
      let outcome := (reindent.perform session.setup 1).run b
      outcome.result = .error .columnOutOfRange ∧ outcome.state.text = "  nop".toList := by
  intro b
  have huniform : b.Uniform ['\n'] ["  nop".toList] := ⟨by decide, by decide, .single rfl, by decide⟩
  refine ⟨Mode.listing.sessionOf (.defaults Mode.listingSchema) [] "default", rfl, huniform, ⟨_, rfl, by decide⟩,
    by decide, by decide, ?_⟩
  decide +kernel

end Action

namespace Buffer

variable {b : Buffer} {front rear : List (List Char)} {line : List Char}

theorem selection_lt (hselected : b.anchor ≠ b.caret) : b.selection.1 < b.selection.2 := by
  simp only [selection]
  omega

/-- A line of a buffer, given by the lines around it, taken apart at its indentation. -/
theorem exists_indented_of_lineTexts (hlines : b.lineTexts = front ++ line :: rear) :
    ∃ front' indent rest rear', b.Indented front' indent rest rear' ∧ front'.length = front.length ∧
      front = front'.map rowText ∧ line = indent ++ rowText rest ∧ rear = rear'.map rowText := by
  have hline : front.length < b.lineCount := by
    rw [← length_lineTexts, hlines, List.length_append, List.length_cons]
    omega
  obtain ⟨front', indent, rest, rear', hlength, hindented⟩ := exists_indented hline
  obtain ⟨hfront, hrest⟩ := List.append_inj (hlines.symm.trans hindented.lineTexts_eq)
    (by rw [List.length_map, hlength])
  obtain ⟨hrow, hrear⟩ := List.cons.inj hrest
  exact ⟨front', indent, rest, rear', hindented, hlength, hfront, hrow, hrear⟩

/-- The place in front of another belongs to the same line, or to the line before if a line starts there. -/
theorem lineOf_pred {place : Nat} (hpositive : 0 < place) :
    ∃ line : Nat, b.lineOf place = line ∧ line < b.lineCount ∧
      (b.lineStart line = .ok place ∧ b.lineOf ((place : Int) - 1) + 1 = line ∨
        b.lineOf ((place : Int) - 1) = line) := by
  obtain ⟨line, start, hof, hget, hstart, hle⟩ := b.lineStart_lineOf (Int.natCast_nonneg place)
  have hline : line < b.lineCount := (List.getElem?_eq_some_iff.mp hget).1
  refine ⟨line, hof, hline, ?_⟩
  obtain ⟨front, row, rear, rfl, hrows, htext⟩ := exists_row hline
  obtain rfl := Except.ok.inj (hstart.symm.trans (hrows.lineStart_eq htext))
  by_cases hsame : front.flatten.length = place
  · have hne : front ≠ [] := by
      rintro rfl
      exact Nat.ne_of_lt hpositive hsame
    rw [← hsame]
    exact .inl ⟨hstart, hrows.lineOf_pred_start htext hne⟩
  · have hbefore : (place : Int) - 1 = (place - 1 : Nat) := by omega
    rw [hbefore]
    refine .inr (hrows.lineOf_of_le htext (by omega) ?_)
    exact (hrows.lt_of_lineOf_eq htext hof).imp_right fun hlt => by omega

end Buffer

namespace Region

/-- A line that starts where the selection ends. -/
def StartsAtEnd (b : Buffer) (line : Nat) : Prop :=
  line < b.lineCount ∧ ∃ start : Nat, b.lineStart line = .ok start ∧ b.selection.2 = start

/-- The lines of any text follow each line that is reindented, whatever they end with. -/
theorem tracks_lineTexts {columns : Columns} (hsound : columns.Sound) :
    Tracks columns fun lines b => b.lineTexts = lines where
  of_text hlines htext := (Buffer.lineTexts_of_text htext).trans hlines
  of_ok {front rear line new b} hlines hnew := by
    obtain ⟨front', indent, rest, rear', hindented, hlength, rfl, rfl, rfl⟩ :=
      Buffer.exists_indented_of_lineTexts hlines
    obtain ⟨blanks, hblanks, rfl⟩ := Columns.reindented_eq_ok hnew
    rw [columns.column_append_blanks hindented.blank] at hblanks
    obtain ⟨heffect, hchanged⟩ := Indenter.reindentLine_indented_of_ok hsound hindented hblanks
    have hlayout := b.replaceRange_layout front'.flatten.length (front'.flatten.length + indent.length : Nat) blanks
    generalize b.replaceRange front'.flatten.length (front'.flatten.length + indent.length : Nat) blanks = b'
      at heffect hchanged hlayout
    have hcontent : (indent ++ rowText rest).dropWhile Text.isBlank = rowText rest := by
      have hwhole : _ ++ (rowText rest).dropWhile Text.isBlank = rowText rest := List.takeWhile_append_dropWhile
      rwa [hindented.rowText_takeWhile, List.nil_append, ← List.dropWhile_append_of_pos hindented.blank] at hwhole
    rw [hlength] at heffect
    refine ⟨b', Step.effect_bind_of_ok heffect, ?_, hlayout⟩
    rw [hchanged.lineTexts_eq, hcontent]
  of_error {front rear line b e} hlines hnew := by
    obtain ⟨front', indent, rest, rear', hindented, hlength, rfl, rfl, rfl⟩ :=
      Buffer.exists_indented_of_lineTexts hlines
    have hblanks := Columns.reindented_eq_error hnew
    rw [columns.column_append_blanks hindented.blank] at hblanks
    rw [← hlength]
    exact Step.effect_bind_of_error (Indenter.reindentLine_indented_of_error hindented hblanks)

/-- The lines from the start of a selection to its end are those that it covers, and one that starts where it ends. -/
theorem reaches_iff {b : Buffer} {first last : Nat} (hanchor : 0 ≤ b.anchor) (hcaret : 0 ≤ b.caret)
    (hselected : b.anchor ≠ b.caret) (hfirst : b.lineOf b.selection.1 = first) (hlast : b.lineOf b.selection.2 = last)
    (line : Nat) : first ≤ line ∧ line ≤ last ↔ Covers b line ∨ StartsAtEnd b line := by
  have hlt := Buffer.selection_lt hselected
  have hpositive : 0 ≤ b.selection.1 := Int.le_min.mpr ⟨hanchor, hcaret⟩
  obtain ⟨stop, hstop⟩ := Int.eq_ofNat_of_zero_le (Int.le_trans hpositive (Int.le_of_lt hlt))
  obtain ⟨first', before, hcovered, hle, -⟩ := coveredLines_eq hcaret hanchor
  rw [covers_iff hcaret hanchor hcovered]
  rw [coveredLines, if_neg (Int.ne_of_lt hlt), hfirst, hstop] at hcovered
  obtain ⟨hsame, hbefore⟩ := Prod.mk.inj hcovered
  obtain rfl : first = first' := Int.ofNat_inj.mp hsame
  rw [hstop] at hlast
  obtain ⟨line', hof, hexists, hpred⟩ := Buffer.lineOf_pred (b := b) (show 0 < stop by omega)
  obtain rfl : last = line' := Int.ofNat_inj.mp (hlast.symm.trans hof)
  -- a line that starts at the end of the selection holds that place
  have hstarts : StartsAtEnd b line ↔ line = last ∧ b.lineStart last = .ok stop := by
    constructor
    · rintro ⟨hline, start, hstart, hend⟩
      obtain rfl : stop = start := Int.ofNat_inj.mp (hstop.symm.trans hend)
      obtain ⟨front, row, rear, rfl, hrows, htext⟩ := Buffer.exists_row hline
      obtain rfl := Except.ok.inj (hstart.symm.trans (hrows.lineStart_eq htext))
      obtain rfl : front.length = last := Int.ofNat_inj.mp ((hrows.lineOf_start htext).symm.trans hlast)
      exact ⟨rfl, hstart⟩
    · rintro ⟨rfl, hstart⟩
      exact ⟨hexists, stop, hstart, hstop⟩
  rw [hstarts]
  obtain ⟨hstart, hprevious⟩ | hsameLine := hpred
  · simp only [hstart, and_true]
    omega
  · obtain rfl : before = last := by omega
    refine ⟨.inl, fun hreached => ?_⟩
    obtain hcovers | ⟨rfl, -⟩ := hreached
    · exact hcovers
    · exact ⟨hle, Nat.le_refl _⟩

end Region

namespace Action

/-- Which lines the two commands for selections work on, whatever the lines of the text end with. Commenting works on
the lines that hold a selected character, which are those that a selection is extended to. Reindenting works on these
and on a line that starts where the selection ends: each of them is exchanged for its text behind the blanks that belong
to it, up to the first for which there is no memory. The other lines stay. -/
theorem reindent_reach {settings : Settings} {plugins : List Plugin} {platform : String} {session : Session}
    {b : Buffer} (hsession : (Mode.listing.activate settings plugins platform).result = .ok session)
    (hanchor : 0 ≤ b.anchor) (hcaret : 0 ≤ b.caret) (hselected : b.anchor ≠ b.caret) (count : Int) :
    let outcome := (reindent.perform session.setup count).run b
    ∃ (columns : Columns) (front middle rear new : List (List Char)) (last : Nat) (result : Except EditError Unit),
      session.setup.indenter = .listing columns ∧ b.lineTexts = front ++ middle ++ rear ∧
      (Region.extendToLines.run b).result = .ok (↑front.length, ↑last) ∧
      (∀ line : Nat, Region.Covers b line ↔ front.length ≤ line ∧ line ≤ last) ∧
      (∀ line : Nat, Region.Covers b line ∨ Region.StartsAtEnd b line ↔
        front.length ≤ line ∧ line < (front ++ middle).length) ∧
      outcome.result = result.map (fun _ => .absent) ∧
      ChangedUpTo (columns.reindented b) middle result new ∧ outcome.state.lineTexts = front ++ new ++ rear := by
  intro outcome
  obtain ⟨columns, hindenter, hsound⟩ := Mode.indenter_of_activate rfl hsession
  have hlt := Buffer.selection_lt hselected
  have hpositive : 0 ≤ b.selection.1 := Int.le_min.mpr ⟨hanchor, hcaret⟩
  obtain ⟨first, last, hcovered, -, -⟩ := Region.coveredLines_eq hcaret hanchor
  obtain ⟨_, _, -, -, hextend⟩ := Region.extendToLines_effect hcovered
  have hfirst : b.lineOf b.selection.1 = first := by
    rw [Region.coveredLines, if_neg (Int.ne_of_lt hlt)] at hcovered
    exact congrArg Prod.fst hcovered
  obtain ⟨final, _, hfinal, hget, -⟩ := b.lineStart_lineOf (Int.le_trans hpositive (Int.le_of_lt hlt))
  have hle := b.lineOf_le_lineOf (Int.le_of_lt hlt)
  have hinside : final < b.lineTexts.length := by
    rw [Buffer.length_lineTexts]
    exact (List.getElem?_eq_some_iff.mp hget).1
  obtain ⟨front, middle, rear, hlines, rfl, hlength⟩ := Region.exists_split (show first ≤ final by omega) hinside
  have hlast : b.lineOf b.selection.2 + 1 = (front ++ middle).length := by
    rw [hfinal, List.length_append]
    omega
  obtain ⟨result, new, b', heffect, hchanged, hdone, -, -⟩ :=
    (Region.tracks_lineTexts hsound).reindent hlines hpositive hlt hfirst hlast
  obtain ⟨hresult, hstate⟩ := reindent_effect hindenter count heffect
  have hafter : outcome.state = b' := hstate
  refine ⟨columns, front, middle, rear, new, last, result, hindenter, hlines, congrArg Prod.fst hextend,
    Region.covers_iff hcaret hanchor hcovered, fun line => ?_, hresult, hchanged, hafter ▸ hdone⟩
  rw [← Region.reaches_iff hanchor hcaret hselected hfirst hfinal, List.length_append]
  omega

/-- Lines that end in different ways, with a selection that ends where the third one starts. -/
def endsAtLabel : Buffer := (Buffer.ofText "a:\r  b\n  c:\r\n d".toList (some 8) false 2 1024).select 4 7

theorem reindent_reach_endsAtLabel :
    ∃ session, (Mode.listing.activate (.defaults Mode.listingSchema) [] "default").result = .ok session ∧
      (Region.extendToLines.run endsAtLabel).result = .ok (1, 1) ∧ Region.StartsAtEnd endsAtLabel 2 ∧
      ((reindent.perform session.setup 1).run endsAtLabel).state.lineTexts =
        ["a:".toList, "        b".toList, "c:".toList, " d".toList] := by
  have hsession : (Mode.listing.activate (.defaults Mode.listingSchema) [] "default").result =
      .ok (Mode.listing.sessionOf (.defaults Mode.listingSchema) [] "default") := rfl
  have hstarts : Region.StartsAtEnd endsAtLabel 2 := ⟨by decide, 7, by decide, by decide⟩
  obtain ⟨columns, front, middle, rear, new, last, result, hindenter, hlines, hextend, hcovers, hreached, -, hchanged,
    hstate⟩ := reindent_reach hsession (b := endsAtLabel) (by decide) (by decide) (by decide) 1
  obtain rfl := Mode.columns_of_defaults hindenter
  have hcovered : (Region.extendToLines.run endsAtLabel).result = .ok (1, 1) := by decide +kernel
  have hboth := Prod.mk.inj (Except.ok.inj (hextend.symm.trans hcovered))
  have hfront : front.length = 1 := by omega
  have hlast : last = 1 := by omega
  have hlength : middle.length = 2 := by
    have hinside := (hreached 2).mp (.inr hstarts)
    have hbehind : ¬ (front.length ≤ 3 ∧ 3 < (front ++ middle).length) := by
      rw [← hreached, hcovers, not_or]
      refine ⟨by omega, ?_⟩
      rintro ⟨-, start, hstart, hend⟩
      have hthird : endsAtLabel.lineStart 3 = .ok 13 := by decide
      cases hthird.symm.trans hstart
      cases hend
    rw [List.length_append] at hinside hbehind
    omega
  have hgiven : endsAtLabel.lineTexts = ["a:".toList] ++ ["  b".toList, "  c:".toList] ++ [" d".toList] := by decide
  obtain ⟨hparts, rfl⟩ := List.append_inj (hlines.symm.trans hgiven) (by simp [hfront, hlength])
  obtain ⟨rfl, rfl⟩ := List.append_inj hparts (by simp [hfront])
  have hmapped : ["  b".toList, "  c:".toList].mapM (Columns.reindented ⟨['#'], 32, 8⟩ endsAtLabel) =
      .ok ["        b".toList, "c:".toList] := by decide +kernel
  rw [hchanged.mapM_eq] at hmapped
  cases result with
  | error e => cases hmapped
  | ok _ =>
    cases hmapped
    exact ⟨_, hsession, hcovered, hstarts, hstate⟩

/-- Two instructions, with a selection that ends where the second one starts. -/
def firstOfTwo : Buffer := (Buffer.ofText "  a\n  b".toList (some 8) false 2 1024).select 0 4

/-- Reindenting changes a line of which nothing is selected, and which commenting leaves alone. -/
theorem reindent_firstOfTwo :
    ∃ session, (Mode.listing.activate (.defaults Mode.listingSchema) [] "default").result = .ok session ∧
      (0 ≤ firstOfTwo.anchor ∧ firstOfTwo.anchor < firstOfTwo.caret ∧ firstOfTwo.caret ≤ firstOfTwo.length) ∧
      ¬ Region.Covers firstOfTwo 1 ∧
      ((reindent.perform session.setup 1).run firstOfTwo).state.text = "        a\n        b".toList ∧
      ((toggleComments.perform session.setup 1).run firstOfTwo).state.text = "#   a\n  b".toList := by
  have hcovered : Region.coveredLines firstOfTwo = (↑(0 : Nat), ↑(0 : Nat)) := by decide
  have hcovers := Region.covers_iff (by decide) (by decide) hcovered 1
  refine ⟨Mode.listing.sessionOf (.defaults Mode.listingSchema) [] "default", rfl, by decide, ?_, by decide +kernel,
    by decide +kernel⟩
  rw [hcovers]
  omega

end Action

end ListingEditor
