import CorridorRank.Text.Basic

/-!
# Blank characters

The characters that count as blank when text is trimmed or a number is read: the ASCII
controls tab to carriage return and the four information separators, the space, next line,
no-break space, and the Unicode space separators, line and paragraph separators
(Unicode 14.0).
-/

namespace CorridorRank.Text

/-- Code points of the blank characters, increasing. -/
def blankCodes : List Nat :=
  [0x09, 0x0A, 0x0B, 0x0C, 0x0D, 0x1C, 0x1D, 0x1E, 0x1F, 0x20, 0x85, 0xA0, 0x1680,
   0x2000, 0x2001, 0x2002, 0x2003, 0x2004, 0x2005, 0x2006, 0x2007, 0x2008, 0x2009, 0x200A,
   0x2028, 0x2029, 0x202F, 0x205F, 0x3000]

/-- Whether a code point is blank (a lone surrogate is not). -/
def isBlankPoint
    (n : Nat) :
    Bool :=
  blankCodes.contains n

/-- Whether a character is blank. -/
def isBlank
    (c : Char) :
    Bool :=
  isBlankPoint c.toNat

/-- A text without its leading and trailing blanks. -/
def strip
    (t : Text) :
    Text :=
  ⟨((t.points.dropWhile isBlankPoint).reverse.dropWhile isBlankPoint).reverse⟩

/-- Every ASCII whitespace character of core is blank. -/
theorem isBlank_of_isWhitespace
    (c : Char)
    (h : c.isWhitespace = true) :
    isBlank c = true := by
  unfold isBlank isBlankPoint
  simp only [Char.isWhitespace, Bool.or_eq_true, decide_eq_true_eq] at h
  rcases h with ((h | h) | h) | h <;> subst h <;> decide

end CorridorRank.Text
