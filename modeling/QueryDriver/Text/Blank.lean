/-! # Blanks

The characters that count as blank around a text: the ASCII ones with the four
separators below the space, the next line control, and the spaces and separators
of Unicode. `trim` takes them off both ends.
-/

namespace QueryDriver.Text

/-- The character separates words and is dropped at the ends of a text. -/
def isBlank (c : Char) : Bool :=
  let n := c.toNat
  (0x09 ≤ n && n ≤ 0x0d) || (0x1c ≤ n && n ≤ 0x20) || n == 0x85 || n == 0xa0 || n == 0x1680
    || (0x2000 ≤ n && n ≤ 0x200a) || n == 0x2028 || n == 0x2029 || n == 0x202f || n == 0x205f
    || n == 0x3000

/-- Every blank of ASCII as the core library knows it is blank here. -/
theorem isBlank_of_isWhitespace (c : Char) (h : c.isWhitespace = true) : isBlank c = true := by
  simp only [Char.isWhitespace, Bool.or_eq_true, decide_eq_true_eq] at h
  rcases h with ((rfl | rfl) | rfl) | rfl <;> decide

/-- A list of characters without the blanks at its end. -/
def dropEnd (cs : List Char) : List Char := (cs.reverse.dropWhile isBlank).reverse

/-- A text without the blanks at its end. -/
def trimEnd (s : String) : String := String.ofList (dropEnd s.toList)

/-- A text without the blanks at its two ends. -/
def trim (s : String) : String := String.ofList (dropEnd (s.toList.dropWhile isBlank))

/-- The text holds nothing but blanks. -/
def allBlank (s : String) : Bool := s.toList.all isBlank

end QueryDriver.Text
