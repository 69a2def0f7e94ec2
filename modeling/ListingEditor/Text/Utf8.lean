namespace ListingEditor.Text.Utf8

/-- The character that stands for octets which are no part of any character. -/
def replacement : Char := Char.ofNat 0xfffd

/-- A character of which some octets have been read: its bits so far, how many octets are missing,
and the range in which the next one has to lie. -/
structure Pending where
  bits : Nat
  missing : Nat
  least : Nat
  greatest : Nat

/-- What an octet at the start of a character gives: a whole character, or one that is pending. -/
def lead (b : Nat) : List Char × Option Pending :=
  if b < 0x80 then ([Char.ofNat b], none)
  else if 0xc2 ≤ b ∧ b ≤ 0xdf then ([], some ⟨b % 0x20, 1, 0x80, 0xbf⟩)
  else if b = 0xe0 then ([], some ⟨0, 2, 0xa0, 0xbf⟩)
  else if b = 0xed then ([], some ⟨0xd, 2, 0x80, 0x9f⟩)
  else if 0xe1 ≤ b ∧ b ≤ 0xef then ([], some ⟨b % 0x10, 2, 0x80, 0xbf⟩)
  else if b = 0xf0 then ([], some ⟨0, 3, 0x90, 0xbf⟩)
  else if 0xf1 ≤ b ∧ b ≤ 0xf3 then ([], some ⟨b % 8, 3, 0x80, 0xbf⟩)
  else if b = 0xf4 then ([], some ⟨4, 3, 0x80, 0x8f⟩)
  else ([replacement], none)

/-- Reads the rest of the octets after what is pending. -/
def decodeFrom : Option Pending → List UInt8 → List Char
  | none, [] => []
  | some _, [] => [replacement]
  | none, b :: bs => (lead b.toNat).1 ++ decodeFrom (lead b.toNat).2 bs
  | some p, b :: bs =>
    if p.least ≤ b.toNat ∧ b.toNat ≤ p.greatest then
      let bits := p.bits * 0x40 + b.toNat % 0x40
      if p.missing ≤ 1 then Char.ofNat bits :: decodeFrom none bs
      else decodeFrom (some ⟨bits, p.missing - 1, 0x80, 0xbf⟩) bs
    else replacement :: (lead b.toNat).1 ++ decodeFrom (lead b.toNat).2 bs

/-- The text of a sequence of octets. The longest start of a character that is not completed is read
as one replacement character, and reading goes on with the octet that broke it off. -/
def decode (bs : List UInt8) : List Char := decodeFrom none bs

end ListingEditor.Text.Utf8
