import ListingEditor.Command
import ListingEditor.Proofs.Buffer.Edit
import ListingEditor.Proofs.Step
import ListingEditor.Proofs.Text.Blank

/-!
Drafts: what is left of a buffer when blanks do not count. A command may move blanks about as it likes; what it
does to the draft is to put something in at the caret.
-/

namespace ListingEditor

/-- A text and a caret in it. -/
structure Draft where
  text : List Char
  caret : Nat
  deriving DecidableEq, Repr

/-- The plain editor: puts a text in at the caret, which ends up behind it. -/
def Draft.insert (draft : Draft) (typed : List Char) : Draft :=
  { text := draft.text.take draft.caret ++ typed ++ draft.text.drop draft.caret
    caret := draft.caret + typed.length }

namespace Buffer

open Text (nonblank)

/-- The text without its blanks, and the caret among what is left. -/
def draft (b : Buffer) : Draft :=
  { text := nonblank b.text, caret := (nonblank (b.text.take b.caret.toNat)).length }

/-- A caret inside the text, with nothing selected. -/
structure Placed (b : Buffer) : Prop where
  caret : 0 ≤ b.caret ∧ b.caret ≤ b.text.length
  anchor : b.anchor = b.caret

/-- One buffer is another with a text put in at the caret, up to blanks on either side. -/
structure Inserts (typed : List Char) (b b' : Buffer) : Prop where
  front : nonblank (b'.text.take b'.caret.toNat) = nonblank (b.text.take b.caret.toNat) ++ typed
  rear : nonblank (b'.text.drop b'.caret.toNat) = nonblank (b.text.drop b.caret.toNat)
  placed : b'.Placed
  layout : b'.layout = b.layout

theorem Placed.inserts_nil {b : Buffer} (hplaced : b.Placed) : Inserts [] b b :=
  ⟨(List.append_nil _).symm, rfl, hplaced, rfl⟩

theorem Inserts.trans {typed more : List Char} {b b' b'' : Buffer} (hfirst : Inserts typed b b')
    (hnext : Inserts more b' b'') : Inserts (typed ++ more) b b'' where
  front := by rw [hnext.front, hfirst.front, List.append_assoc]
  rear := hnext.rear.trans hfirst.rear
  placed := hnext.placed
  layout := hnext.layout.trans hfirst.layout

/-- The text around the caret. -/
theorem Placed.exists_around {b : Buffer} (hplaced : b.Placed) :
    ∃ front rear, b.text = front ++ rear ∧ b.caret = front.length := by
  obtain ⟨hlower, hupper⟩ := hplaced.caret
  refine ⟨b.text.take b.caret.toNat, b.text.drop b.caret.toNat, (List.take_append_drop ..).symm, ?_⟩
  rw [List.length_take]
  omega

theorem inserts_of_around {typed front rear front' rear' : List Char} {b b' : Buffer}
    (htext : b.text = front ++ rear) (hcaret : b.caret = front.length)
    (htext' : b'.text = front' ++ rear') (hcaret' : b'.caret = front'.length)
    (hanchor' : b'.anchor = front'.length) (hfront : nonblank front' = nonblank front ++ typed)
    (hrear : nonblank rear' = nonblank rear) (hlayout : b'.layout = b.layout) : Inserts typed b b' := by
  refine ⟨?_, ?_, ⟨?_, hanchor'.trans hcaret'.symm⟩, hlayout⟩
  · rw [htext, htext', hcaret, hcaret', Int.toNat_natCast, Int.toNat_natCast, List.take_left,
      List.take_left, hfront]
  · rw [htext, htext', hcaret, hcaret', Int.toNat_natCast, Int.toNat_natCast, List.drop_left,
      List.drop_left, hrear]
  · rw [hcaret', htext', List.length_append]
    omega

theorem goto_eq_select {b : Buffer} {front rear : List Char} (htext : b.text = front ++ rear) :
    b.goto front.length = b.select front.length front.length := by
  have hinside : max 0 (min (front.length : Int) b.length) = front.length := by
    rw [length, htext, List.length_append]
    omega
  rw [goto, hinside]
  rfl

/-- An edit after which the caret is moved. -/
theorem inserts_goto {typed front rear front' rear' : List Char} {b b' : Buffer}
    (htext : b.text = front ++ rear) (hcaret : b.caret = front.length)
    (htext' : b'.text = front' ++ rear') (hfront : nonblank front' = nonblank front ++ typed)
    (hrear : nonblank rear' = nonblank rear) (hlayout : b'.layout = b.layout) :
    Inserts typed b (b'.goto front'.length) := by
  rw [goto_eq_select htext']
  exact inserts_of_around htext hcaret htext' rfl rfl hfront hrear hlayout

/-- What was put in at the caret is put in at the caret of the draft. -/
theorem Inserts.draft_eq {typed : List Char} {b b' : Buffer} (hinserts : Inserts typed b b') :
    b'.draft = b.draft.insert typed := by
  have hhalves (b : Buffer) : nonblank b.text =
      nonblank (b.text.take b.caret.toNat) ++ nonblank (b.text.drop b.caret.toNat) := by
    rw [← Text.nonblank_append, List.take_append_drop]
  simp only [draft, Draft.insert, Draft.mk.injEq]
  constructor
  · rw [hhalves b', hhalves b, hinserts.front, hinserts.rear, List.take_left, List.drop_left]
  · rw [hinserts.front, List.length_append]

end Buffer

open Buffer (Inserts)

/-- A command writes strokes into a buffer: all of them if it returns, and the first few if it fails. It is sure
to return if it is `safe`. -/
structure Command.Writes {α : Type} (safe : Prop) (strokes : List (List Char)) (command : Command α)
    (b : Buffer) : Prop where
  written : ∃ done, done <+: strokes ∧ Inserts done.flatten b (command.effect b).2 ∧
    ∀ a, (command.effect b).1 = .ok a → done = strokes
  returns : safe → ∃ a, (command.effect b).1 = .ok a

namespace Command

variable {α β : Type} {safe : Prop} {strokes more : List (List Char)} {b b' : Buffer}

theorem writes_of_ok {command : Command α} {a : α} (heffect : command.effect b = (.ok a, b'))
    (hinserts : Inserts strokes.flatten b b') : Writes safe strokes command b := by
  refine ⟨⟨strokes, List.prefix_rfl, ?_, fun _ _ => rfl⟩, fun _ => ⟨a, by rw [heffect]⟩⟩
  rw [heffect]
  exact hinserts

theorem writes_of_error {command : Command α} {e : EditError} (hplaced : b.Placed)
    (heffect : command.effect b = (.error e, b)) (hrisky : ¬ safe) : Writes safe strokes command b := by
  refine ⟨⟨[], List.nil_prefix, ?_, ?_⟩, fun h => absurd h hrisky⟩
  · rw [heffect]
    exact hplaced.inserts_nil
  · rw [heffect]
    exact nofun

theorem writes_pure (a : α) (hplaced : b.Placed) : Writes safe [] (pure a : Command α) b :=
  ⟨⟨[], List.prefix_rfl, hplaced.inserts_nil, fun _ _ => rfl⟩, fun _ => ⟨a, rfl⟩⟩

/-- A command that goes on as another one after it has put in a stroke. -/
theorem Writes.after {command : Command α} {rest : Command α} {typed : List Char}
    (hrest : Writes safe strokes rest b') (heffect : command.effect b = rest.effect b')
    (hinserts : Inserts typed b b') : Writes safe (typed :: strokes) command b := by
  obtain ⟨⟨done, hprefix, hfurther, hall⟩, hreturns⟩ := hrest
  rw [← heffect] at hfurther hall hreturns
  refine ⟨⟨typed :: done, List.cons_prefix_cons.mpr ⟨rfl, hprefix⟩, ?_, ?_⟩, hreturns⟩
  · exact hinserts.trans hfurther
  · intro a ha
    rw [hall a ha]

/-- A command that goes on as another one after it has moved blanks about. -/
theorem Writes.after_blanks {command : Command α} {rest : Command α}
    (hrest : Writes safe strokes rest b') (heffect : command.effect b = rest.effect b')
    (hinserts : Inserts [] b b') : Writes safe strokes command b := by
  obtain ⟨⟨done, hprefix, hfurther, hall⟩, hreturns⟩ := hrest
  rw [← heffect] at hfurther hall hreturns
  exact ⟨⟨done, hprefix, hinserts.trans hfurther, hall⟩, hreturns⟩

/-- Undo groups hold no text. -/
theorem Writes.grouped {command : Command α} (hwrites : Writes safe strokes command b.beginUndo) :
    Writes safe strokes (Command.grouped command) b := by
  obtain ⟨⟨done, hprefix, hinserts, hall⟩, hreturns⟩ := hwrites
  refine ⟨⟨done, hprefix, ⟨hinserts.front, hinserts.rear, ⟨?_, ?_⟩, hinserts.layout⟩, hall⟩, hreturns⟩
  · exact hinserts.placed.caret
  · exact hinserts.placed.anchor

theorem Writes.bind {first : Command α} {next : α → Command β} (hfirst : Writes safe strokes first b)
    (hnext : ∀ a b', Inserts strokes.flatten b b' → Writes safe more (next a) b') :
    Writes safe (strokes ++ more) (first >>= next) b := by
  obtain ⟨⟨done, hprefix, hinserts, hall⟩, hreturns⟩ := hfirst
  cases heffect : first.effect b with
  | mk result b' =>
    rw [heffect] at hinserts hall hreturns
    cases result with
    | error e =>
      have hbind : (first >>= next).effect b = (.error e, b') := Step.effect_bind_of_error heffect
      refine ⟨⟨done, hprefix.trans (List.prefix_append ..), ?_, ?_⟩, ?_⟩
      · rw [hbind]
        exact hinserts
      · rw [hbind]
        exact nofun
      · intro hsafe
        obtain ⟨a, ha⟩ := hreturns hsafe
        cases ha
    | ok a =>
      have hbind : (first >>= next).effect b = (next a).effect b' := Step.effect_bind_of_ok heffect
      obtain rfl := hall a rfl
      obtain ⟨⟨further, hfurther, hinserts', hall'⟩, hreturns'⟩ := hnext a b' hinserts
      refine ⟨⟨done ++ further, (List.prefix_append_right_inj done).mpr hfurther, ?_, ?_⟩, ?_⟩
      · rw [hbind, List.flatten_append]
        exact hinserts.trans hinserts'
      · rw [hbind]
        intro c hc
        rw [hall' c hc]
      · rw [hbind]
        exact hreturns'

theorem Writes.returning {command : Command Unit} (hwrites : Writes safe strokes command b) (a : α) :
    Writes safe strokes (do command; return a) b := by
  have hboth : Writes safe (strokes ++ []) (do command; return a) b :=
    hwrites.bind fun _ _ hinserts => writes_pure a hinserts.placed
  rwa [List.append_nil] at hboth

/-- A command again and again writes its stroke again and again. -/
theorem writes_times {command : Command Unit} {stroke : List Char} (count : Nat) (hplaced : b.Placed)
    (hcommand : ∀ b' : Buffer, b'.Placed → b'.layout = b.layout → Writes safe [stroke] command b') :
    Writes safe (List.replicate count stroke) (times count command) b := by
  induction count generalizing b with
  | zero => exact writes_pure () hplaced
  | succ count ih =>
    refine (hcommand b hplaced rfl).bind fun _ b' hinserts => ?_
    apply ih hinserts.placed
    intro b'' hplaced'' hlayout
    exact hcommand b'' hplaced'' (hlayout.trans hinserts.layout)

end Command

end ListingEditor
