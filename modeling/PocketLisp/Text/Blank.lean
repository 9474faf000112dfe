/-!
# Blank characters

`isBlank` is the white-space property of the Unicode standard; it is wider than
`Char.isWhitespace`, which knows ASCII only.
-/

namespace PocketLisp.Text

/-- The runs of characters that have the white-space property. -/
def blankRuns : List (Nat × Nat) :=
  [(0x09, 0x0D), (0x20, 0x20), (0x85, 0x85), (0xA0, 0xA0), (0x1680, 0x1680),
    (0x2000, 0x200A), (0x2028, 0x2029), (0x202F, 0x202F), (0x205F, 0x205F), (0x3000, 0x3000)]

/-- Whether a character is blank. -/
def isBlank (c : Char) : Bool :=
  blankRuns.any fun run => run.1 ≤ c.toNat && c.toNat ≤ run.2

/-- Spaces, tabs and the ends of lines are blank. -/
theorem isBlank_of_isWhitespace {c : Char} (h : c.isWhitespace) :
  isBlank c
  := by
  simp only [Char.isWhitespace, Bool.or_eq_true, decide_eq_true_eq] at h
  rcases h with ((rfl | rfl) | rfl) | rfl <;> decide

/-- A text without the blanks at its two ends. -/
def trim (text : List Char) : List Char :=
  ((text.dropWhile isBlank).reverse.dropWhile isBlank).reverse

end PocketLisp.Text
