import ListingEditor.Buffer.Lines
import ListingEditor.Proofs.Text.Slice

/-!
What the edits of a buffer do at places inside the text.
-/

namespace ListingEditor.Buffer

variable (b : Buffer)

@[simp] theorem insert_text (place : Nat) (text : List Char) :
    (b.insert place text).text = b.text.take place ++ text ++ b.text.drop place := by
  rw [insert, Text.before_natCast, Text.after_natCast]

@[simp] theorem insert_styles (place : Nat) (text : List Char) :
    (b.insert place text).styles =
      b.styles.take place ++ List.replicate text.length 0 ++ b.styles.drop place := by
  rw [insert, Text.splice_natCast _ _ (Nat.le_refl place)]

variable {start stop : Nat}

@[simp] theorem erase_text (hle : start ≤ stop) :
    (b.erase start stop).text = b.text.take start ++ b.text.drop stop := by
  unfold erase
  split
  · have heq : stop = start := by omega
    rw [heq, List.take_append_drop]
  · rw [Text.before_natCast, Text.after_natCast]

@[simp] theorem erase_styles (hle : start ≤ stop) :
    (b.erase start stop).styles = b.styles.take start ++ b.styles.drop stop := by
  unfold erase
  split
  · have heq : stop = start := by omega
    rw [heq, List.take_append_drop]
  · rw [Text.splice_natCast _ _ hle, List.append_nil]

theorem erase_of_le {start stop : Int} (hle : stop ≤ start) : b.erase start stop = b := if_pos hle

/-- What a host sets up and no edit changes. -/
def layout : Option Int × Bool × Int × Nat := (b.tabWidth, b.useTabs, b.eolMode, b.memory)

theorem layout_eq_iff {b b' : Buffer} :
    b'.layout = b.layout ↔
      b'.tabWidth = b.tabWidth ∧ b'.useTabs = b.useTabs ∧ b'.eolMode = b.eolMode ∧ b'.memory = b.memory := by
  simp only [layout, Prod.mk.injEq]

theorem newline_eq_of_layout {b b' : Buffer} (hlayout : b'.layout = b.layout) : b'.newline = b.newline :=
  congrArg lineEnding (layout_eq_iff.mp hlayout).2.2.1

theorem room_of_layout {b b' : Buffer} (hlayout : b'.layout = b.layout) : b'.room = b.room :=
  congrArg (fun memory : Nat => min (memory : Int) countLimit) (layout_eq_iff.mp hlayout).2.2.2

theorem countFault?_of_layout {b b' : Buffer} (hlayout : b'.layout = b.layout) (count : Int) :
    b'.countFault? count = b.countFault? count := by
  rw [countFault?, (layout_eq_iff.mp hlayout).2.2.2, countFault?]

theorem erase_layout (start stop : Int) : (b.erase start stop).layout = b.layout := by
  unfold erase
  split <;> rfl

theorem replaceRange_layout (start stop : Int) (text : List Char) :
    (b.replaceRange start stop text).layout = b.layout := b.erase_layout start stop

theorem replaceRange_text (text : List Char) (hle : start ≤ stop) (hstop : stop ≤ b.text.length) :
    (b.replaceRange start stop text).text = b.text.take start ++ text ++ b.text.drop stop := by
  have hlength : (b.text.take start).length = start := by
    rw [List.length_take]
    omega
  rw [replaceRange, insert_text, erase_text b hle, List.take_left' hlength, List.drop_left' hlength]

/-- Exchanging the middle of a text that is given in three parts. -/
theorem replaceRange_middle {front middle rest : List Char} (text : List Char)
    (htext : b.text = front ++ middle ++ rest) :
    (b.replaceRange front.length (front.length + middle.length : Nat) text).text =
      front ++ text ++ rest := by
  have hlength : (front ++ middle).length = front.length + middle.length := List.length_append
  have hinside : front.length + middle.length ≤ b.text.length := by
    rw [htext, List.length_append, hlength]
    omega
  rw [b.replaceRange_text text (Nat.le_add_right ..) hinside, htext, List.drop_left' hlength,
    List.append_assoc front, List.take_left]

theorem range_middle {front middle rest : List Char} (htext : b.text = front ++ middle ++ rest) :
    b.range front.length (front.length + middle.length : Nat) = middle := by
  rw [range, Text.slice_natCast, htext, ← List.length_append, List.take_left, List.drop_left]

theorem positionAfterErase_bounds {start stop length : Nat} {p : Int} (hle : start ≤ stop)
    (hstop : stop ≤ length) (hp : 0 ≤ p ∧ p ≤ length) :
    0 ≤ positionAfterErase start stop p ∧
      positionAfterErase start stop p ≤ (length - (stop - start) : Nat) := by
  unfold positionAfterErase
  split <;> (try split) <;> omega

theorem positionAfterInsert_bounds {place : Int} {count length : Nat} {p : Int}
    (hp : 0 ≤ p ∧ p ≤ length) :
    0 ≤ positionAfterInsert place count p ∧
      positionAfterInsert place count p ≤ (length + count : Nat) := by
  unfold positionAfterInsert
  split <;> omega

end ListingEditor.Buffer
