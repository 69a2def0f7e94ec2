import ListingEditor.Proofs.Buffer.Edit
import ListingEditor.Proofs.Highlight.Request

/-!
Styling by and by. Whatever order edits and requests come in, the text that counts as styled has the right
styles as far as whole lines go, so that one more request makes all styles right.
-/

namespace ListingEditor.Highlighter

open Text (EndsLine)

/-- What the host of a buffer can do: select, edit, and ask for styles up to a place. -/
inductive HostStep where
  | select (anchor caret : Nat)
  | setText (text : List Char)
  | insertAt (place : Int) (text : List Char)
  | typeText (text : List Char)
  | replaceSelection (text : List Char)
  | replaceRange (start stop : Nat) (text : List Char)
  | style (stop : Nat)
  deriving DecidableEq, Repr

namespace HostStep

/-- Whether the places of a step lie in the text, and those of a request not before the end of what is styled. A
negative place to insert at stands for the caret. -/
def Inside (b : Buffer) : HostStep → Prop
  | .select anchor caret => anchor ≤ b.length ∧ caret ≤ b.length
  | .insertAt place _ => place ≤ b.length
  | .replaceRange start stop _ => start ≤ b.length ∧ stop ≤ b.length
  | .style stop => b.endStyled ≤ stop ∧ stop ≤ b.length
  | _ => True

instance (b : Buffer) : (s : HostStep) → Decidable (s.Inside b)
  | .select anchor caret => inferInstanceAs (Decidable (anchor ≤ b.length ∧ caret ≤ b.length))
  | .insertAt place _ => inferInstanceAs (Decidable (place ≤ b.length))
  | .replaceRange start stop _ =>
    inferInstanceAs (Decidable (start ≤ b.length ∧ stop ≤ b.length))
  | .style stop => inferInstanceAs (Decidable (b.endStyled ≤ stop ∧ stop ≤ b.length))
  | .setText _ => isTrue trivial
  | .typeText _ => isTrue trivial
  | .replaceSelection _ => isTrue trivial

/-- The buffer after a step. A request that fails leaves what it has done. -/
def apply (highlighter : Highlighter) (b : Buffer) : HostStep → Buffer
  | .select anchor caret => b.select anchor caret
  | .setText text => b.setText text
  | .insertAt place text => b.insertAt place text
  | .typeText text => b.typeText text
  | .replaceSelection text => b.replaceSelection text
  | .replaceRange start stop text => b.replaceRange start stop text
  | .style stop => ((highlighter.styleText b.endStyled stop).run b).state

end HostStep

/-- The buffers that steps of the host lead to. -/
inductive Reached (highlighter : Highlighter) (first : Buffer) : Buffer → Prop where
  | start : Reached highlighter first first
  | step {b : Buffer} {s : HostStep} (hreached : Reached highlighter first b) (hinside : s.Inside b) :
      Reached highlighter first (s.apply highlighter b)

/-- The styles up to each return in front of `endStyled` are right. -/
structure Styled (marker : Char) (sourceInComments : Bool) (b : Buffer) : Prop where
  width : ∃ width, b.tabWidth = some width ∧ 1 ≤ width
  covers : b.styles.length = b.text.length
  caret : 0 ≤ b.caret ∧ b.caret ≤ b.text.length
  anchor : 0 ≤ b.anchor ∧ b.anchor ≤ b.text.length
  endStyled : 0 ≤ b.endStyled ∧ b.endStyled ≤ b.text.length
  right : ∀ n : Nat, n ≤ b.endStyled → EndsLine (b.text.take n) →
    b.styles.take n = textStyles marker sourceInComments (b.text.take n)

variable {marker : Char} {sourceInComments : Bool} {b : Buffer}

theorem styled_ofText (marker : Char) (sourceInComments : Bool) (text : List Char) {width : Int}
    (hwidth : 1 ≤ width) (useTabs : Bool) (eolMode : Int) (memory : Nat) :
    Styled marker sourceInComments (Buffer.ofText text (some width) useTabs eolMode memory) where
  width := ⟨width, rfl, hwidth⟩
  covers := List.length_replicate
  caret := ⟨Int.le_refl 0, Int.natCast_nonneg _⟩
  anchor := ⟨Int.le_refl 0, Int.natCast_nonneg _⟩
  endStyled := ⟨Int.le_refl 0, Int.natCast_nonneg _⟩
  right := by
    intro n hn _
    have hzero : n = 0 := by
      change (n : Int) ≤ 0 at hn
      omega
    rw [hzero, List.take_zero, List.take_zero]
    rfl

namespace Styled

theorem select (hstyled : Styled marker sourceInComments b) {anchor caret : Int}
    (hanchor : 0 ≤ anchor ∧ anchor ≤ b.text.length) (hcaret : 0 ≤ caret ∧ caret ≤ b.text.length) :
    Styled marker sourceInComments (b.select anchor caret) :=
  { hstyled with caret := hcaret, anchor := hanchor }

theorem setText (hstyled : Styled marker sourceInComments b) (text : List Char) :
    Styled marker sourceInComments (b.setText text) := by
  obtain ⟨width, htab, hwidth⟩ := hstyled.width
  have hfresh := styled_ofText marker sourceInComments text hwidth b.useTabs b.eolMode b.memory
  exact ⟨hstyled.width, hfresh.covers, hfresh.caret, hfresh.anchor, hfresh.endStyled, hfresh.right⟩

/-- Styles that are right stay so when only what lies behind them changes. -/
theorem right_of_take_eq (hstyled : Styled marker sourceInComments b) {place : Nat} {text : List Char}
    {styles : List Nat} (htext : text.take place = b.text.take place)
    (hstyles : styles.take place = b.styles.take place) (n : Nat) (hn : n ≤ min b.endStyled place)
    (hends : EndsLine (text.take n)) :
    styles.take n = textStyles marker sourceInComments (text.take n) := by
  have hplace : n ≤ place := by omega
  have htextn : text.take n = b.text.take n := by
    rw [← Nat.min_eq_left hplace, ← List.take_take, htext, List.take_take]
  have hstylesn : styles.take n = b.styles.take n := by
    rw [← Nat.min_eq_left hplace, ← List.take_take, hstyles, List.take_take]
  rw [htextn] at hends ⊢
  rw [hstylesn]
  exact hstyled.right n (by omega) hends

theorem insert (hstyled : Styled marker sourceInComments b) {place : Nat} (text : List Char)
    (hplace : place ≤ b.text.length) : Styled marker sourceInComments (b.insert place text) := by
  have hlength : (b.insert place text).text.length = b.text.length + text.length := by
    simp only [Buffer.insert_text, List.length_append, List.length_take, List.length_drop]
    omega
  have hcovers := hstyled.covers
  refine ⟨hstyled.width, ?_, ?_, ?_, ?_, ?_⟩
  · simp only [hlength, Buffer.insert_styles, List.length_append, List.length_take, List.length_drop,
      List.length_replicate]
    omega
  · rw [hlength]
    exact Buffer.positionAfterInsert_bounds hstyled.caret
  · rw [hlength]
    exact Buffer.positionAfterInsert_bounds hstyled.anchor
  · have hend := hstyled.endStyled
    rw [hlength]
    change 0 ≤ min b.endStyled place ∧ min b.endStyled place ≤ _
    omega
  · refine hstyled.right_of_take_eq ?_ ?_
    · rw [Buffer.insert_text, List.append_assoc, List.take_left' (by rw [List.length_take]; omega)]
    · rw [Buffer.insert_styles, List.append_assoc, List.take_left' (by rw [List.length_take]; omega)]

theorem erase (hstyled : Styled marker sourceInComments b) {start stop : Nat} (hle : start ≤ stop)
    (hstop : stop ≤ b.text.length) : Styled marker sourceInComments (b.erase start stop) := by
  by_cases hempty : (stop : Int) ≤ start
  · rwa [b.erase_of_le hempty]
  have hlength : (b.erase start stop).text.length = b.text.length - (stop - start) := by
    rw [Buffer.erase_text b hle, List.length_append, List.length_take, List.length_drop]
    omega
  have htab : (b.erase start stop).tabWidth = b.tabWidth :=
    (Buffer.layout_eq_iff.mp (b.erase_layout ..)).1
  have hcovers := hstyled.covers
  refine ⟨htab ▸ hstyled.width, ?_, ?_, ?_, ?_, ?_⟩
  · rw [hlength, Buffer.erase_styles b hle, List.length_append, List.length_take, List.length_drop]
    omega
  · rw [hlength, Buffer.erase, if_neg hempty]
    exact Buffer.positionAfterErase_bounds hle hstop hstyled.caret
  · rw [hlength, Buffer.erase, if_neg hempty]
    exact Buffer.positionAfterErase_bounds hle hstop hstyled.anchor
  · have hend := hstyled.endStyled
    rw [hlength, Buffer.erase, if_neg hempty]
    change 0 ≤ min b.endStyled start ∧ min b.endStyled start ≤ _
    omega
  · rw [Buffer.erase_text b hle, Buffer.erase_styles b hle, Buffer.erase, if_neg hempty]
    refine hstyled.right_of_take_eq ?_ ?_
    · rw [List.take_left' (by rw [List.length_take]; omega)]
    · rw [List.take_left' (by rw [List.length_take]; omega)]

theorem replaceRange (hstyled : Styled marker sourceInComments b) {start stop : Nat}
    (text : List Char) (hstart : start ≤ b.text.length) (hstop : stop ≤ b.text.length) :
    Styled marker sourceInComments (b.replaceRange start stop text) := by
  by_cases hle : start ≤ stop
  · apply (hstyled.erase hle hstop).insert
    rw [Buffer.erase_text b hle, List.length_append, List.length_take]
    omega
  · have hnothing : b.erase start stop = b := b.erase_of_le (by omega)
    rw [Buffer.replaceRange, hnothing]
    exact hstyled.insert text hstart

theorem typeText (hstyled : Styled marker sourceInComments b) (text : List Char) :
    Styled marker sourceInComments (b.typeText text) := by
  obtain ⟨hlower, hupper⟩ := hstyled.caret
  obtain ⟨caret, hcaret⟩ := Int.eq_ofNat_of_zero_le hlower
  have hplace : caret ≤ b.text.length := by omega
  have hbehind : 0 ≤ b.caret + text.length ∧
      b.caret + text.length ≤ (b.insert caret text).text.length := by
    simp only [Buffer.insert_text, List.length_append, List.length_take, List.length_drop]
    omega
  have hselect := (hstyled.insert text hplace).select hbehind hbehind
  rw [← hcaret] at hselect
  exact hselect

theorem insertAt (hstyled : Styled marker sourceInComments b) {place : Int} (text : List Char)
    (hplace : place ≤ b.text.length) : Styled marker sourceInComments (b.insertAt place text) := by
  obtain ⟨hlower, hupper⟩ := hstyled.caret
  have hinside : 0 ≤ (if place < 0 then b.caret else place) ∧
      (if place < 0 then b.caret else place) ≤ b.text.length := by
    split <;> omega
  obtain ⟨inside, heq⟩ := Int.eq_ofNat_of_zero_le hinside.1
  rw [Buffer.insertAt, heq]
  exact hstyled.insert text (by omega)

theorem replaceSelection (hstyled : Styled marker sourceInComments b) (text : List Char) :
    Styled marker sourceInComments (b.replaceSelection text) := by
  have hcaret := hstyled.caret
  have hanchor := hstyled.anchor
  have hbounds : 0 ≤ b.selection.1 ∧ b.selection.1 ≤ b.selection.2 ∧
      b.selection.2 ≤ b.text.length := by
    simp only [Buffer.selection]
    omega
  obtain ⟨start, hstart⟩ := Int.eq_ofNat_of_zero_le hbounds.1
  obtain ⟨stop, hstop⟩ := Int.eq_ofNat_of_zero_le (Int.le_trans hbounds.1 hbounds.2.1)
  rw [hstart, hstop] at hbounds
  have hle : start ≤ stop := Int.ofNat_le.mp hbounds.2.1
  have hinside : stop ≤ b.text.length := Int.ofNat_le.mp hbounds.2.2
  have hbehind : 0 ≤ (start : Int) + text.length ∧
      (start : Int) + text.length ≤ (b.replaceRange start stop text).text.length := by
    simp only [b.replaceRange_text text hle hinside, List.length_append, List.length_take,
      List.length_drop]
    omega
  have hselect := (hstyled.replaceRange text (by omega) hinside).select hbehind hbehind
  rw [Buffer.replaceSelection, hstart, hstop]
  exact hselect

/-- What a request does where the styles in front of it are right. -/
theorem request (hstyled : Styled marker sourceInComments b) {stop : Nat} (hstart : b.endStyled ≤ stop)
    (hstop : stop ≤ b.text.length) :
    ∃ middle : Nat, middle ≤ stop ∧
      ((styleText (.listing [marker] sourceInComments) b.endStyled stop).run b).state =
        { b with
          styles := (textStyles marker sourceInComments (b.text.take stop)).take middle ++
            b.styles.drop middle
          endStyled := max b.endStyled middle } ∧
      (((styleText (.listing [marker] sourceInComments) b.endStyled stop).run b).result = .ok () →
        middle = stop) ∧
      (b.text.length ≤ b.room →
        ((styleText (.listing [marker] sourceInComments) b.endStyled stop).run b).result = .ok ()) := by
  obtain ⟨width, htab, hwidth⟩ := hstyled.width
  obtain ⟨hlower, hupper⟩ := hstyled.endStyled
  obtain ⟨place, hplace⟩ := Int.eq_ofNat_of_zero_le hlower
  obtain ⟨front, rear, htext, hstarts, hle, hfirst⟩ :=
    adjustStart_listing [marker] sourceInComments htab hwidth (show place ≤ b.text.length by omega)
  have hright : b.styles.take front.length = textStyles marker sourceInComments front := by
    have htake : b.text.take front.length = front := by rw [htext, List.take_left]
    have hfront := hstyled.right front.length (by omega)
    rw [htake] at hfront
    exact hfront hstarts.ends
  rw [← hplace] at hfirst
  obtain ⟨middle, hmiddle, hstate, hall⟩ := styleText_listing htext hstarts.ends hfirst hstyled.covers
    (by omega) hright (show front.length ≤ stop by omega) hstop
  exact ⟨middle, hmiddle, hstate, hall,
    styleText_result_of_le hfirst (show front.length ≤ stop by omega) hstop⟩

theorem style (hstyled : Styled marker sourceInComments b) {stop : Nat} (hstart : b.endStyled ≤ stop)
    (hstop : stop ≤ b.text.length) :
    Styled marker sourceInComments
      ((styleText (.listing [marker] sourceInComments) b.endStyled stop).run b).state := by
  obtain ⟨middle, hmiddle, hstate, _, _⟩ := hstyled.request hstart hstop
  have hcovers := hstyled.covers
  have hend := hstyled.endStyled
  have hlength : ((textStyles marker sourceInComments (b.text.take stop)).take middle).length = middle := by
    rw [List.length_take, textStyles_length, List.length_take]
    omega
  rw [hstate]
  refine ⟨hstyled.width, ?_, hstyled.caret, hstyled.anchor, ?_, ?_⟩
  · change (_ ++ b.styles.drop middle).length = b.text.length
    rw [List.length_append, hlength, List.length_drop]
    omega
  · change 0 ≤ max b.endStyled middle ∧ max b.endStyled middle ≤ b.text.length
    omega
  · intro n hn hends
    change (n : Int) ≤ max b.endStyled middle at hn
    change EndsLine (b.text.take n) at hends
    change (_ ++ b.styles.drop middle).take n = textStyles marker sourceInComments (b.text.take n)
    -- up to a return the styles of a text depend on nothing behind it
    have hwhole : (textStyles marker sourceInComments (b.text.take stop)).take n =
        textStyles marker sourceInComments (b.text.take n) := by
      rw [Text.take_eq_append_drop b.text (show n ≤ stop by omega), textStyles_append _ _ _ hends,
        List.take_left' (by rw [textStyles_length, List.length_take]; omega)]
    by_cases hpainted : n ≤ middle
    · rw [List.take_append_of_le_length (by omega), List.take_take, Nat.min_eq_left hpainted, hwhole]
    · have hold := hstyled.right n (by omega) hends
      have hfront : (textStyles marker sourceInComments (b.text.take stop)).take middle =
          b.styles.take middle := by
        rw [← Nat.min_eq_left (show middle ≤ n by omega), ← List.take_take, hwhole, ← hold,
          List.take_take]
      rw [hfront, List.take_append_drop, hold]

end Styled

/-- Every step of the host keeps right styles right. -/
theorem styled_apply (hstyled : Styled marker sourceInComments b) {s : HostStep} (hinside : s.Inside b) :
    Styled marker sourceInComments (s.apply (.listing [marker] sourceInComments) b) := by
  cases s with
  | select anchor caret =>
    obtain ⟨hanchor, hcaret⟩ := hinside
    exact hstyled.select ⟨by omega, Int.ofNat_le.mpr hanchor⟩ ⟨by omega, Int.ofNat_le.mpr hcaret⟩
  | setText text => exact hstyled.setText text
  | insertAt place text => exact hstyled.insertAt text hinside
  | typeText text => exact hstyled.typeText text
  | replaceSelection text => exact hstyled.replaceSelection text
  | replaceRange start stop text => exact hstyled.replaceRange text hinside.1 hinside.2
  | style stop => exact hstyled.style hinside.1 hinside.2

theorem styled_of_reached {first : Buffer} (hfirst : Styled marker sourceInComments first)
    (hreached : Reached (.listing [marker] sourceInComments) first b) :
    Styled marker sourceInComments b := by
  induction hreached with
  | start => exact hfirst
  | step _ hinside ih => exact styled_apply ih hinside

/-- A request for all that is left makes all styles right, and only a lack of memory can stop it. -/
theorem styled_rest (hstyled : Styled marker sourceInComments b) :
    (b.length ≤ b.room →
        ((styleText (.listing [marker] sourceInComments) b.endStyled b.length).run b).result = .ok ()) ∧
      (((styleText (.listing [marker] sourceInComments) b.endStyled b.length).run b).result = .ok () →
        ((styleText (.listing [marker] sourceInComments) b.endStyled b.length).run b).state.styles =
          textStyles marker sourceInComments b.text) := by
  obtain ⟨middle, _, hstate, hall, hmemory⟩ := hstyled.request hstyled.endStyled.2 (Nat.le_refl _)
  refine ⟨hmemory, fun hok => ?_⟩
  obtain rfl := hall hok
  have hcovers := hstyled.covers
  rw [Buffer.length, hstate]
  change List.take _ _ ++ List.drop _ _ = _
  rw [List.take_length, List.drop_eq_nil_of_le (by omega), List.append_nil,
    List.take_of_length_le (by rw [textStyles_length])]

/-- However a buffer has been edited and styled by parts, a request for the rest leaves the styles that a new
buffer with the same text gets from one request for all of it. Both requests return unless a text has more
characters than there is memory for. -/
theorem styleText_rest_eq_fresh (marker : Char) (sourceInComments : Bool) {text : List Char}
    {width : Int} {useTabs : Bool} {eolMode : Int} {memory : Nat} {b : Buffer} (hwidth : 1 ≤ width)
    (hreached : Reached (.listing [marker] sourceInComments)
      (.ofText text (some width) useTabs eolMode memory) b) :
    let rest := (styleText (.listing [marker] sourceInComments) b.endStyled b.length).run b
    let fresh := (styleText (.listing [marker] sourceInComments) 0 b.length).run
      (.ofText b.text (some width) useTabs eolMode b.memory)
    (b.length ≤ b.room → rest.result = .ok () ∧ fresh.result = .ok ()) ∧
      (rest.result = .ok () → fresh.result = .ok () → rest.state.styles = fresh.state.styles) := by
  intro rest fresh
  have hrest := styled_rest
    (styled_of_reached (styled_ofText marker sourceInComments text hwidth useTabs eolMode memory) hreached)
  have hfresh := styled_rest (styled_ofText marker sourceInComments b.text hwidth useTabs eolMode b.memory)
  refine ⟨fun hmemory => ⟨hrest.1 hmemory, hfresh.1 hmemory⟩, fun hok hfreshOk => ?_⟩
  exact (hrest.2 hok).trans (hfresh.2 hfreshOk).symm

/-- A buffer that was styled up to the middle of a line, got another line, and was styled up to the middle of the
break between the two. -/
def brokenOff : Buffer :=
  [HostStep.style 3, .insertAt 5 "\n# x".toList, .style 5].foldl
    (HostStep.apply (.listing ['#'] false)) (.ofText " #ab\r".toList (some 8) false 2 1024)

theorem brokenOff_reached :
    Reached (.listing ['#'] false) (.ofText " #ab\r".toList (some 8) false 2 1024) brokenOff := by
  apply Reached.step (s := .style 5)
  · apply Reached.step (s := .insertAt 5 _)
    · exact .step .start (by decide)
    · decide +kernel
  · decide +kernel

theorem styleText_rest_eq_fresh_brokenOff :
    brokenOff.endStyled = 5 ∧ brokenOff.styles = [0, 7, 7, 7, 0, 0, 0, 0, 0] ∧
      ((styleText (.listing ['#'] false) brokenOff.endStyled brokenOff.length).run brokenOff).state.styles =
        ((styleText (.listing ['#'] false) 0 brokenOff.length).run
          (.ofText brokenOff.text (some 8) false 2 brokenOff.memory)).state.styles := by
  have hequal := styleText_rest_eq_fresh '#' false (by decide) brokenOff_reached
  obtain ⟨hrest, hfresh⟩ := hequal.1 (by decide +kernel)
  exact ⟨by decide +kernel, by decide +kernel, hequal.2 hrest hfresh⟩

end ListingEditor.Highlighter
