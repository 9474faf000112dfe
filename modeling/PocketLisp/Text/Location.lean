/-!
# Places in a text

A place in a text is given either by its offset, the number of UTF-8 bytes before it, or by
its `Location`, a line and a column for people.  `Location.ofOffset` goes from the first to
the second.
-/

namespace PocketLisp.Text

/-- The number of bytes of a text in UTF-8. -/
def utf8Length : List Char → Nat
  | [] => 0
  | c :: text => c.utf8Size + utf8Length text

/-- No characters take no bytes. -/
@[simp]
theorem utf8Length_nil :
  utf8Length [] = 0
  := rfl

/-- The first character takes its bytes before the others. -/
@[simp]
theorem utf8Length_cons (c : Char) (text : List Char) :
  utf8Length (c :: text) = c.utf8Size + utf8Length text
  := rfl

/-- A text takes the bytes of both its parts. -/
@[simp]
theorem utf8Length_append (first second : List Char) :
  utf8Length (first ++ second) = utf8Length first + utf8Length second
  := by
  induction first with
  | nil => simp
  | cons c first ih => simp [ih, Nat.add_assoc]

/-- Of two parts that a text begins with, the one that leaves more has fewer bytes. -/
theorem utf8Length_lt {first second third fourth : List Char}
    (h : first ++ second = third ++ fourth) (hlength : fourth.length < second.length) :
  utf8Length first < utf8Length third
  := by
  rcases List.append_eq_append_iff.mp h with ⟨_ | ⟨c, middle⟩, rfl, rfl⟩ | ⟨middle, rfl, rfl⟩
  · simp at hlength
  · have := c.utf8Size_pos
    rw [utf8Length_append, utf8Length_cons]
    omega
  · rw [List.length_append] at hlength
    omega

/-- The part of a text before an offset; none if the offset lies inside a character or past
the end. -/
def before? : List Char → Nat → Option (List Char)
  | _, 0 => some []
  | [], _ + 1 => none
  | c :: text, offset =>
    if c.utf8Size ≤ offset then (before? text (offset - c.utf8Size)).map (c :: ·) else none

/-- Before the end of the first part of a text is that part. -/
theorem before?_append (first second : List Char) :
  before? (first ++ second) (utf8Length first) = some first
  := by
  induction first with
  | nil => cases second <;> rfl
  | cons c first ih =>
    have hsize : utf8Length (c :: first) ≠ 0 := by
      have := c.utf8Size_pos
      rw [utf8Length_cons]
      omega
    rw [List.cons_append, before?.eq_3 _ _ _ hsize, utf8Length_cons,
      if_pos (Nat.le_add_right _ _), Nat.add_sub_cancel_left, ih]
    rfl

/-- A line and a column, both counted from one; a column is one character wide. -/
structure Location where
  line : Nat
  column : Nat
deriving DecidableEq

namespace Location

/-- The location of the first character of a text. -/
def start : Location := ⟨1, 1⟩

/-- The location after a character that is at `place`. -/
def advance (place : Location) (c : Char) : Location :=
  if c = '\n' then ⟨place.line + 1, 1⟩ else ⟨place.line, place.column + 1⟩

/-- The location at the end of `text`: one line more than it has line feeds, one column more
than it has characters after the last of them. -/
def atEnd (text : List Char) : Location where
  line := text.count '\n' + 1
  column := (text.reverse.takeWhile (· ≠ '\n')).length + 1

/-- The end of no characters is the beginning. -/
@[simp]
theorem atEnd_nil :
  atEnd [] = start
  := rfl

/-- The end of a text is reached by advancing over its characters. -/
theorem atEnd_concat (text : List Char) (c : Char) :
  atEnd (text ++ [c]) = (atEnd text).advance c
  := by
  by_cases h : c = '\n' <;> simp [atEnd, advance, h]

/-- The location of an offset; an offset that is at no character counts as the end. -/
def ofOffset (text : List Char) (offset : Nat) : Location :=
  atEnd ((before? text offset).getD text)

/-- The location of the end of the first part of a text. -/
theorem ofOffset_append (first second : List Char) :
  ofOffset (first ++ second) (utf8Length first) = atEnd first
  := by
  rw [ofOffset, before?_append, Option.getD_some]

/-- The location in words. -/
def text (place : Location) : String :=
  "line " ++ toString place.line ++ ", column " ++ toString place.column

end Location

end PocketLisp.Text
