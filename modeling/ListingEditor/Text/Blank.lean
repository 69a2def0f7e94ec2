namespace ListingEditor.Text

/-- The blanks that make up indentation: space and tab. -/
def isBlank (c : Char) : Bool := c == ' ' || c == '\t'

/-- White space of any kind: the ASCII controls that separate, and the blanks of every script. -/
def isSpace (c : Char) : Bool :=
  (0x09 ≤ c.toNat && c.toNat ≤ 0x0d) || (0x1c ≤ c.toNat && c.toNat ≤ 0x20) ||
    c.toNat ∈ [0x85, 0xa0, 0x1680, 0x2028, 0x2029, 0x202f, 0x205f, 0x3000] ||
    (0x2000 ≤ c.toNat && c.toNat ≤ 0x200a)

/-- The text without the characters of a kind at its front. -/
def trimStart (kind : Char → Bool) (cs : List Char) : List Char := cs.dropWhile kind

/-- The text without the characters of a kind at its end. -/
def trimEnd (kind : Char → Bool) (cs : List Char) : List Char := (cs.reverse.dropWhile kind).reverse

/-- The text without white space at either end. -/
def trim (cs : List Char) : List Char := trimEnd isSpace (trimStart isSpace cs)

/-- The words of a text: its longest runs without white space. -/
def words : List Char → List (List Char)
  | [] => []
  | c :: cs =>
    if isSpace c then words cs
    else
      match cs with
      | [] => [[c]]
      | d :: _ =>
        if isSpace d then [c] :: words cs
        else
          match words cs with
          | [] => [[c]]
          | w :: ws => (c :: w) :: ws

/-- Text made of white space only, the empty text included. -/
def isAllSpace (cs : List Char) : Bool := cs.all isSpace

end ListingEditor.Text
