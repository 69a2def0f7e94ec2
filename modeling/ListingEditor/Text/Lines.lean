import ListingEditor.Text.Blank

namespace ListingEditor.Text

/-- The characters that end a line wherever text is read as a sequence of lines. -/
def isLineBreak (c : Char) : Bool :=
  (0x0a ≤ c.toNat && c.toNat ≤ 0x0d) || (0x1c ≤ c.toNat && c.toNat ≤ 0x1e) ||
    c.toNat ∈ [0x85, 0x2028, 0x2029]

/-- The characters that end a line of an edited text. -/
def isReturn (c : Char) : Bool := c == '\r' || c == '\n'

/-- The lines of a text, each with the line break that ends it. A carriage return and the line feed
behind it are one break. -/
def lines : List Char → List (List Char)
  | [] => []
  | '\r' :: '\n' :: cs => ['\r', '\n'] :: lines cs
  | c :: cs =>
    if isLineBreak c then [c] :: lines cs
    else
      match lines cs with
      | [] => [[c]]
      | l :: ls => (c :: l) :: ls

/-- A line without the break that ends it. -/
def lineBody (l : List Char) : List Char := l.takeWhile fun c => !isLineBreak c

/-- The pieces of a text that end at a line feed, each with its line feed. -/
def feedLines : List Char → List (List Char)
  | [] => []
  | c :: cs =>
    if c = '\n' then [c] :: feedLines cs
    else
      match feedLines cs with
      | [] => [[c]]
      | l :: ls => (c :: l) :: ls

theorem lines_flatten (cs : List Char) : (lines cs).flatten = cs := by
  fun_induction lines cs <;> simp_all

theorem feedLines_flatten (cs : List Char) : (feedLines cs).flatten = cs := by
  fun_induction feedLines cs <;> simp_all

end ListingEditor.Text
