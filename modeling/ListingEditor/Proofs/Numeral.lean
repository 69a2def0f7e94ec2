import ListingEditor.Numeral
import ListingEditor.Proofs.Text.Blank
import Mathlib.Data.Nat.Digits.Defs

/-!
Whole numbers are read back from the numerals that write them, as long as a double has room for all their binary
digits. What is read is never too long to be written.
-/

namespace ListingEditor

namespace Double

theorem roundQuotient_of_dvd {num den : Nat} (hden : 0 < den) (hdvd : den ∣ num) :
    roundQuotient num den = num / den := by
  rw [roundQuotient, Nat.mod_eq_zero_of_dvd hdvd, if_pos (by omega)]

/-- Scaled by the right power of two, a positive number of at most 53 binary digits has exactly so many. -/
theorem scaled_bounds {n : Nat} (hpositive : 0 < n) (hlt : n < 2 ^ 53) :
    n.log2 ≤ 52 ∧ 2 ^ 52 ≤ n * 2 ^ (52 - n.log2) ∧ n * 2 ^ (52 - n.log2) < 2 ^ 53 := by
  have hlog : n.log2 < 53 := (Nat.log2_lt (by omega)).mpr hlt
  refine ⟨by omega, ?_, ?_⟩
  · calc 2 ^ 52 = 2 ^ n.log2 * 2 ^ (52 - n.log2) := by rw [← Nat.pow_add]; congr 1; omega
      _ ≤ n * 2 ^ (52 - n.log2) := Nat.mul_le_mul_right _ (Nat.log2_self_le (by omega))
  · calc n * 2 ^ (52 - n.log2) < 2 ^ (n.log2 + 1) * 2 ^ (52 - n.log2) :=
          Nat.mul_lt_mul_of_pos_right Nat.lt_log2_self (Nat.two_pow_pos _)
      _ = 2 ^ 53 := by rw [← Nat.pow_add]; congr 1; omega

theorem exponentFor_one {n : Nat} (hpositive : 0 < n) (hlt : n < 2 ^ 53) :
    exponentFor n 1 = -((52 - n.log2 : Nat) : Int) := by
  obtain ⟨hlog, hlower, -⟩ := scaled_bounds hpositive hlt
  have hguess : (n.log2 : Int) - (1 : Nat).log2 - 52 = -((52 - n.log2 : Nat) : Int) := by
    rw [show Nat.log2 1 = 0 by decide]
    omega
  have hlong : ¬ (if 0 ≤ -((52 - n.log2 : Nat) : Int) then
      n < 1 <<< ((-((52 - n.log2 : Nat) : Int)).toNat + 52)
      else n <<< (- -((52 - n.log2 : Nat) : Int)).toNat < 1 <<< 52) := by
    simp only [Nat.shiftLeft_eq, Nat.one_mul, Int.neg_neg, Int.toNat_natCast]
    split
    · have hzero : 52 - n.log2 = 0 := by omega
      rw [hzero] at hlower ⊢
      simpa using hlower
    · omega
  rw [exponentFor, hguess]
  simp only [hlong, if_false]
  omega

theorem roundScaled_one (n k : Nat) : roundScaled n 1 (-(k : Int)) = n * 2 ^ k := by
  unfold roundScaled
  split
  · obtain rfl : k = 0 := by omega
    exact (roundQuotient_of_dvd (by decide) (Nat.one_dvd n)).trans (by simp)
  · rw [roundQuotient_of_dvd (by decide) (Nat.one_dvd _), Nat.div_one, Nat.shiftLeft_eq, Int.neg_neg,
      Int.toNat_natCast]

/-- A positive number of at most 53 binary digits is a double. -/
theorem ofQuotient_one {n : Nat} (negative : Bool) (hpositive : 0 < n) (hlt : n < 2 ^ 53) :
    ofQuotient negative n 1 =
      .finite negative (n * 2 ^ (52 - n.log2)) (-((52 - n.log2 : Nat) : Int)) := by
  obtain ⟨hlog, -, hupper⟩ := scaled_bounds hpositive hlt
  have hne : n * 2 ^ (52 - n.log2) ≠ 1 <<< 53 := by
    rw [Nat.shiftLeft_eq]
    omega
  rw [ofQuotient, exponentFor_one hpositive hlt, roundScaled_one]
  simp only [hne, if_false]
  rw [if_neg (by omega)]

/-- A sign in front of a number. -/
def signed (negative : Bool) (n : Nat) : Int := if negative then -(n : Int) else n

theorem wholePart_scaled (negative : Bool) (n k : Nat) :
    wholePart negative (n * 2 ^ k) (-(k : Int)) = signed negative n := by
  have hquotient : (n * 2 ^ k) <<< (-(k : Int)).toNat / 1 <<< (- -(k : Int)).toNat = n := by
    rw [Int.neg_neg, Int.toNat_natCast, Int.toNat_of_nonpos (by omega), Nat.shiftLeft_zero, Nat.one_shiftLeft,
      Nat.mul_div_cancel _ (Nat.two_pow_pos k)]
  rw [wholePart, quotient]
  simp only [hquotient]
  rfl

/-- The decimal of a whole number stands for that number, if it is not above two to the power of 53. -/
theorem ofDecimal_whole (negative : Bool) {n : Nat} (hle : n ≤ 2 ^ 53) :
    ∃ mantissa exponent, ofDecimal negative n 0 = .finite negative mantissa exponent ∧
      wholePart negative mantissa exponent = signed negative n := by
  rcases Nat.eq_zero_or_pos n with rfl | hpositive
  · exact ⟨0, 0, rfl, by cases negative <;> rfl⟩
  have hlength : (Nat.toDigits 10 n).length ≤ 16 := Nat.toDigits_length 10 n 16 (by decide) (by omega)
  have hdouble : ofDecimal negative n 0 = ofQuotient negative n 1 := by
    rw [ofDecimal, if_neg (by omega), if_neg (by omega), if_pos (Int.le_refl 0)]
    exact congrArg (ofQuotient negative · 1) (Nat.mul_one n)
  rcases Nat.lt_or_eq_of_le hle with hlt | rfl
  · exact ⟨_, _, hdouble.trans (ofQuotient_one negative hpositive hlt), wholePart_scaled negative n _⟩
  · refine ⟨2 ^ 52, 1, hdouble.trans ?_, ?_⟩ <;> cases negative <;> decide +kernel

theorem roundQuotient_le (num den : Nat) : roundQuotient num den ≤ num / den + 1 := by
  unfold roundQuotient
  dsimp only
  split
  · exact Nat.le_succ _
  · split
    · exact Nat.le_refl _
    · split
      · exact Nat.le_succ _
      · exact Nat.le_refl _

theorem exponentFor_ge (num den : Nat) : (num.log2 : Int) - den.log2 - 53 ≤ exponentFor num den := by
  refine Int.le_trans ?_ (Int.le_max_left ..)
  by_cases hshort : if 0 ≤ (num.log2 : Int) - den.log2 - 52 then
      num < den <<< (((num.log2 : Int) - den.log2 - 52).toNat + 52)
      else num <<< (-((num.log2 : Int) - den.log2 - 52)).toNat < den <<< 52
  · rw [if_pos hshort]
    omega
  · rw [if_neg hshort]
    omega

/-- A quotient that is scaled by the exponent for it has hardly more than 53 binary digits before the point. -/
theorem roundScaled_le {num den : Nat} (hden : den ≠ 0) {shift : Int}
    (hshift : (num.log2 : Int) - den.log2 - 53 ≤ shift) : roundScaled num den shift ≤ 2 ^ 54 := by
  have hnum : num < 2 ^ (num.log2 + 1) := Nat.lt_log2_self
  have hlower : 2 ^ den.log2 ≤ den := Nat.log2_self_le hden
  unfold roundScaled
  split
  · have hquotient : num / den <<< shift.toNat < 2 ^ 54 := by
      rw [Nat.shiftLeft_eq]
      apply Nat.div_lt_of_lt_mul
      calc num < 2 ^ (num.log2 + 1) := hnum
        _ ≤ 2 ^ (den.log2 + shift.toNat + 54) := Nat.pow_le_pow_right (by decide) (by omega)
        _ = 2 ^ den.log2 * 2 ^ shift.toNat * 2 ^ 54 := by rw [Nat.pow_add, Nat.pow_add]
        _ ≤ den * 2 ^ shift.toNat * 2 ^ 54 := Nat.mul_le_mul_right _ (Nat.mul_le_mul_right _ hlower)
    exact Nat.le_trans (roundQuotient_le ..) hquotient
  · have hquotient : (num <<< (-shift).toNat) / den < 2 ^ 54 := by
      rw [Nat.shiftLeft_eq]
      apply Nat.div_lt_of_lt_mul
      calc num * 2 ^ (-shift).toNat < 2 ^ (num.log2 + 1) * 2 ^ (-shift).toNat :=
            Nat.mul_lt_mul_of_pos_right hnum (Nat.two_pow_pos _)
        _ = 2 ^ (num.log2 + 1 + (-shift).toNat) := (Nat.pow_add ..).symm
        _ ≤ 2 ^ (den.log2 + 54) := Nat.pow_le_pow_right (by decide) (by omega)
        _ = 2 ^ den.log2 * 2 ^ 54 := Nat.pow_add ..
        _ ≤ den * 2 ^ 54 := Nat.mul_le_mul_right _ hlower
    exact Nat.le_trans (roundQuotient_le ..) hquotient

/-- Mantissa and exponent of a double, and so its size, are bounded. -/
structure Bounded (mantissa : Nat) (exponent : Int) : Prop where
  mantissa : mantissa ≤ 2 ^ 54
  exponent : exponent ≤ 971

theorem ofQuotient_bounded {negative sign : Bool} {num den mantissa : Nat} {exponent : Int} (hden : den ≠ 0)
    (hfinite : ofQuotient negative num den = .finite sign mantissa exponent) : Bounded mantissa exponent := by
  have hround := roundScaled_le hden (exponentFor_ge num den)
  unfold ofQuotient at hfinite
  dsimp only at hfinite
  split at hfinite <;> dsimp only at hfinite <;> split at hfinite <;> cases hfinite
  · exact ⟨by decide, by omega⟩
  · exact ⟨hround, by omega⟩

theorem ofDecimal_bounded {negative sign : Bool} {digits mantissa : Nat} {scale exponent : Int}
    (hfinite : ofDecimal negative digits scale = .finite sign mantissa exponent) : Bounded mantissa exponent := by
  unfold ofDecimal at hfinite
  dsimp only at hfinite
  split at hfinite
  · cases hfinite
    exact ⟨by decide, by decide⟩
  · split at hfinite
    · cases hfinite
    · split at hfinite
      · exact ofQuotient_bounded Nat.one_ne_zero hfinite
      · exact ofQuotient_bounded (Nat.pow_pos (by decide : 0 < 10)).ne' hfinite

/-- Cutting off at the point makes no number greater. -/
theorem natAbs_wholePart_le (negative : Bool) (mantissa : Nat) (exponent : Int) :
    (wholePart negative mantissa exponent).natAbs ≤ mantissa * 2 ^ exponent.toNat := by
  have hsize : (mantissa <<< exponent.toNat) / 1 <<< (-exponent).toNat ≤ mantissa * 2 ^ exponent.toNat := by
    rw [← Nat.shiftLeft_eq]
    exact Nat.div_le_self ..
  unfold wholePart quotient
  dsimp only
  split
  · rwa [Int.natAbs_neg, Int.natAbs_natCast]
  · rwa [Int.natAbs_natCast]

theorem Bounded.lt_longNumber {mantissa : Nat} {exponent : Int} (hbounded : Bounded mantissa exponent) :
    mantissa * 2 ^ exponent.toNat < Text.longNumber := by
  have hexponent : exponent.toNat ≤ 971 := Int.toNat_le.mpr hbounded.exponent
  calc mantissa * 2 ^ exponent.toNat ≤ 2 ^ 54 * 2 ^ 971 :=
        Nat.mul_le_mul hbounded.mantissa (Nat.pow_le_pow_right (by decide) hexponent)
    _ < Text.longNumber := by decide +kernel

end Double

namespace Numeral

open Double (signed)

theorem plainDigit_of_isDigit {c : Char} (hdigit : c.isDigit = true) : plainDigit c = c := by
  obtain ⟨hlower, hupper⟩ : 48 ≤ c.toNat ∧ c.toNat ≤ 57 := Char.isDigit_iff_toNat.mp hdigit
  have hvalue : Text.digitValue? c = some (c.toNat - 48) := by
    rw [Text.digitValue?, if_pos (by omega)]
    exact if_pos ⟨hlower, hupper⟩
  rw [plainDigit, hvalue]
  change Char.ofNat (48 + (c.toNat - 48)) = c
  rw [Nat.add_sub_of_le hlower, Char.ofNat_toNat]

theorem isSpace_of_isDigit {c : Char} (hdigit : c.isDigit = true) : Text.isSpace c = false := by
  obtain ⟨hlower, hupper⟩ : 48 ≤ c.toNat ∧ c.toNat ≤ 57 := Char.isDigit_iff_toNat.mp hdigit
  rw [← Bool.not_eq_true]
  simp only [Text.isSpace, Bool.and_eq_true, Bool.or_eq_true, decide_eq_true_eq, List.mem_cons,
    List.not_mem_nil, or_false]
  omega

theorem isSurround_of_isDigit {c : Char} (hdigit : c.isDigit = true) : isSurround c = false := by
  rw [isSurround, isSpace_of_isDigit hdigit, Bool.false_and]

theorem digitsValue_toDigits (n : Nat) : digitsValue (Nat.toDigits 10 n) = n := by
  have hfold : digitsValue (Nat.toDigits 10 n) = Nat.ofDigitChars 10 (Nat.toDigits 10 n) 0 := by
    unfold digitsValue Nat.ofDigitChars
    congr 1
    funext value c
    rw [Nat.mul_comm]
  rw [hfold, Nat.ofDigitChars_ten_toDigits]

theorem underscoresFit_of_forall_ne {previous : Char} {text : List Char} (hprevious : previous ≠ '_')
    (htext : ∀ c ∈ text, c ≠ '_') : underscoresFit previous text = true := by
  induction text generalizing previous with
  | nil => simpa [underscoresFit] using hprevious
  | cons c text ih =>
    obtain ⟨hc, hrest⟩ := List.forall_mem_cons.mp htext
    simp [underscoresFit, hc, hprevious, ih hc hrest]

section

variable {digits : List Char} (hdigits : ∀ c ∈ digits, c.isDigit = true)

include hdigits

theorem unsigned?_digits (negative : Bool) (hne : digits ≠ []) :
    unsigned? negative digits = some (Double.ofDecimal negative (digitsValue digits) 0) := by
  have hwhole : digits.takeWhile Char.isDigit = digits := List.takeWhile_eq_self_iff.mpr hdigits
  have hrest : digits.dropWhile Char.isDigit = [] := List.dropWhile_eq_nil_iff.mpr hdigits
  simp [unsigned?, hwhole, hrest, hne, exponent?]

/-- Digits are not the words for what is no number. -/
theorem word_ne {word : String} {first : Char} (hfirst : word.toList.head? = some first) (hletter : 58 ≤ first.toNat)
    (hne : digits ≠ []) :
    String.ofList (digits.map Char.toLower) ≠ word := by
  rintro rfl
  obtain ⟨c, rest, rfl⟩ := List.exists_cons_of_ne_nil hne
  obtain ⟨hlower, hupper⟩ : 48 ≤ c.toNat ∧ c.toNat ≤ 57 := Char.isDigit_iff_toNat.mp (hdigits c List.mem_cons_self)
  have hsame : c.toLower = c := by
    unfold Char.toLower
    rw [dif_neg]
    rintro ⟨hletter, -⟩
    have hle : 65 ≤ c.toNat := hletter
    omega
  obtain rfl : c = first := by simpa [hsame] using hfirst
  omega

theorem takeSign_digits (negative : Bool) :
    takeSign (if negative then '-' :: digits else digits) = (negative, digits) := by
  cases negative with
  | true => rfl
  | false =>
    simp only [Bool.false_eq_true, if_false]
    cases digits with
    | nil => rfl
    | cons c rest =>
      have hc := hdigits c List.mem_cons_self
      unfold takeSign
      split
      · rename_i hminus
        rw [(List.cons.inj hminus).1] at hc
        cases hc
      · rename_i hplus
        rw [(List.cons.inj hplus).1] at hc
        cases hc
      · rfl

/-- A sign and digits are read as the decimal they write. -/
theorem read?_digits (negative : Bool) (hne : digits ≠ []) :
    read? (if negative then '-' :: digits else digits) =
      some (Double.ofDecimal negative (digitsValue digits) 0) := by
  have hchars : ∀ c ∈ (if negative then '-' :: digits else digits), c = '-' ∨ c.isDigit = true := by
    intro c hc
    cases negative with
    | true => exact (List.mem_cons.mp hc).imp_right (hdigits c)
    | false => exact .inr (hdigits c hc)
  generalize htext : (if negative then '-' :: digits else digits) = text at hchars
  have hspace (c : Char) (hc : c ∈ text) : isSurround c = false := by
    rcases hchars c hc with rfl | hdigit
    · rfl
    · exact isSurround_of_isDigit hdigit
  have hplain : text.map plainDigit = text := by
    refine (List.map_congr_left fun c hc => ?_).trans text.map_id
    rcases hchars c hc with rfl | hdigit
    · rfl
    · exact plainDigit_of_isDigit hdigit
  have htrim : Text.trimEnd isSurround (Text.trimStart isSurround text) = text := by
    rw [Text.trimStart_eq_self fun c hc => hspace c (List.mem_of_mem_head? hc),
      Text.trimEnd_eq_self fun c hc => hspace c (List.mem_of_getLast? hc)]
  have hunderscore : ∀ c ∈ text, c ≠ '_' := by
    rintro c hc rfl
    rcases hchars _ hc with hminus | hdigit
    · cases hminus
    · cases hdigit
  have hfilter : text.filter (· != '_') = text := List.filter_eq_self.mpr (by simpa using hunderscore)
  have hfits := underscoresFit_of_forall_ne (show ' ' ≠ '_' by decide) hunderscore
  have hi : 58 ≤ 'i'.toNat := by decide
  have hn : 58 ≤ 'n'.toNat := by decide
  have hsign := takeSign_digits hdigits negative
  rw [htext] at hsign
  rw [read?, htrim, hplain, if_pos hfits, hfilter, hsign]
  dsimp only
  rw [if_neg (not_or.mpr ⟨word_ne hdigits rfl hi hne, word_ne hdigits rfl hi hne⟩),
    if_neg (word_ne hdigits rfl hn hne), unsigned?_digits hdigits negative hne]

end

/-- The numeral of a whole number. -/
theorem toList_toString_int (n : Int) :
    (toString n).toList = if n < 0 then '-' :: Nat.toDigits 10 n.natAbs else Nat.toDigits 10 n.natAbs := by
  cases n with
  | ofNat n => simp [toString, Int.repr]
  | negSucc n => simp [toString, Int.repr]

/-- A whole number is read back from its numeral, unless it has too many binary digits. -/
theorem toInt_toString {n : Int} (hle : n.natAbs ≤ 2 ^ 53) : toInt (toString n).toList = .ok n := by
  have hdigits : ∀ c ∈ Nat.toDigits 10 n.natAbs, c.isDigit = true := fun c hc =>
    Nat.isDigit_of_mem_toDigits (by decide) (by decide) hc
  have hread := read?_digits hdigits (decide (n < 0)) Nat.toDigits_ne_nil
  obtain ⟨mantissa, exponent, hdouble, hwhole⟩ := Double.ofDecimal_whole (decide (n < 0)) hle
  simp only [decide_eq_true_eq] at hread
  rw [digitsValue_toDigits, hdouble] at hread
  rw [toInt, toList_toString_int, hread]
  dsimp only
  rw [hwhole, signed]
  congr 1
  simp only [decide_eq_true_eq]
  split <;> omega

theorem unsigned?_bounded {negative sign : Bool} {text : List Char} {mantissa : Nat} {exponent : Int}
    (hread : unsigned? negative text = some (.finite sign mantissa exponent)) : Double.Bounded mantissa exponent := by
  unfold unsigned? at hread
  dsimp only at hread
  have hdecimal {digits : Nat} {fraction : Int} {rest : List Char}
      (hscaled : (exponent? rest).map (fun scale => Double.ofDecimal negative digits (scale - fraction)) =
        some (.finite sign mantissa exponent)) : Double.Bounded mantissa exponent := by
    obtain ⟨scale, -, hdouble⟩ := Option.map_eq_some_iff.mp hscaled
    exact Double.ofDecimal_bounded hdouble
  split at hread <;> dsimp only at hread <;> split at hread
  · cases hread
  · exact hdecimal hread
  · cases hread
  · exact hdecimal hread

theorem read?_bounded {text : List Char} {negative : Bool} {mantissa : Nat} {exponent : Int}
    (hread : read? text = some (.finite negative mantissa exponent)) : Double.Bounded mantissa exponent := by
  unfold read? at hread
  dsimp only at hread
  split at hread
  · split at hread
    · cases hread
    · split at hread
      · cases hread
      · exact unsigned?_bounded hread
  · cases hread

/-- A whole number that is read is short, for it goes through a double. -/
theorem toInt_lt_longNumber {text : List Char} {n : Int} (hread : toInt text = .ok n) :
    n.natAbs < Text.longNumber := by
  unfold toInt at hread
  cases hdouble : read? text with
  | none =>
    rw [hdouble] at hread
    cases hread
  | some x =>
    rw [hdouble] at hread
    cases x with
    | infinite negative | undefined => cases hread
    | finite negative mantissa exponent =>
      obtain rfl := Except.ok.inj hread
      exact Nat.lt_of_le_of_lt (Double.natAbs_wholePart_le ..) (read?_bounded hdouble).lt_longNumber

end Numeral

end ListingEditor
