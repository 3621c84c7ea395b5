/-!
# Blank characters

A blank is a character with the Unicode property `White_Space`. A text is trimmed by dropping the
blanks at its two ends.
-/

namespace Braceline.Text

/-- Does a list of code point runs, each given by its first and last member, hold `c`? -/
def inRanges (ranges : List (Nat × Nat)) (c : Char) : Bool :=
  ranges.any fun r => r.1 ≤ c.toNat && c.toNat ≤ r.2

/-- The runs of blanks, in order. -/
def blankRanges : List (Nat × Nat) :=
  [(0x9, 0xD), (0x20, 0x20), (0x85, 0x85), (0xA0, 0xA0), (0x1680, 0x1680), (0x2000, 0x200A),
   (0x2028, 0x2029), (0x202F, 0x202F), (0x205F, 0x205F), (0x3000, 0x3000)]

/-- White space of any script, line breaks included. -/
def isBlank (c : Char) : Bool := inRanges blankRanges c

/-- A space or a tab: the blanks that a line continuation swallows. -/
def isSpaceOrTab (c : Char) : Bool := c == ' ' || c == '\t'

/-- The text without the blanks in front. -/
def trimStart (cs : List Char) : List Char := cs.dropWhile isBlank

/-- The text without the blanks at its end. -/
def trimEnd (cs : List Char) : List Char := (cs.reverse.dropWhile isBlank).reverse

/-- The text without the blanks at either end. -/
def trim (cs : List Char) : List Char := trimEnd (trimStart cs)

theorem isBlank_of_isSpaceOrTab {c : Char} (h : isSpaceOrTab c = true) : isBlank c = true := by
  have h' : c = ' ' ∨ c = '\t' := by simpa [isSpaceOrTab] using h
  rcases h' with rfl | rfl <;> decide

end Braceline.Text
