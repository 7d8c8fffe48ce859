/-!
Blank characters are those with the Unicode property `White_Space`. Trimming removes them from both
ends of a text and nothing else.
-/

namespace EventSourcing.Text

/-- The code points with the property `White_Space`, as inclusive ranges. -/
def blankRanges : List (Nat × Nat) :=
  [(0x9, 0xD), (0x20, 0x20), (0x85, 0x85), (0xA0, 0xA0), (0x1680, 0x1680), (0x2000, 0x200A),
    (0x2028, 0x2029), (0x202F, 0x202F), (0x205F, 0x205F), (0x3000, 0x3000)]

def isBlank (c : Char) : Bool :=
  blankRanges.any fun range => range.1 ≤ c.toNat && c.toNat ≤ range.2

/-- Every character that core counts as white space is blank. -/
theorem isBlank_of_isWhitespace (c : Char) (space : c.isWhitespace = true) : isBlank c = true := by
  simp only [Char.isWhitespace, Bool.or_eq_true, decide_eq_true_eq] at space
  rcases space with ((rfl | rfl) | rfl) | rfl <;> decide

def trimStart (text : List Char) : List Char :=
  text.dropWhile isBlank

def trimEnd (text : List Char) : List Char :=
  (trimStart text.reverse).reverse

def trim (text : List Char) : List Char :=
  trimEnd (trimStart text)

/-- What trimming at the start leaves does not begin with a blank. -/
theorem trimStart_head (text : List Char) (c : Char) (rest : List Char)
    (left : trimStart text = c :: rest) : isBlank c = false := by
  have kept := List.head?_dropWhile_not isBlank text
  rw [show text.dropWhile isBlank = c :: rest from left] at kept
  simpa using kept

end EventSourcing.Text
