import PocketLisp.Proofs.Read.Progress
import Mathlib.Data.Prod.Lex

/-!
# Locations of errors

The location of an offset is the one that is reached by advancing over the characters before it.
Every character moves a location on in the order of reading, so that the location goes up with the
offset, and two places between characters never share one.

A reader finds fault somewhere in the form that it reads.  The location that it reports is that of
one place in the source, and the place is not before the form.
-/

namespace PocketLisp

namespace Text

variable {text : List Char} {offset offset' : Nat}

/-- Whether an offset is one of the places between the characters of a text, or at its ends. -/
def IsBoundary (text : List Char) (offset : Nat) : Prop :=
  ∃ passed left, text = passed ++ left ∧ offset = utf8Length passed

/-- The place behind what was passed is a boundary. -/
theorem isBoundary_append (passed left : List Char) :
  IsBoundary (passed ++ left) (utf8Length passed)
  := ⟨passed, left, rfl, rfl⟩

/-- No boundary is past the end. -/
theorem IsBoundary.le (h : IsBoundary text offset) :
  offset ≤ utf8Length text
  := by
  obtain ⟨passed, left, rfl, rfl⟩ := h
  rw [utf8Length_append]
  apply Nat.le_add_right

/-- What is passed at the later one of two boundaries is what is passed at the earlier one and
something more. -/
theorem exists_between (h : IsBoundary text offset) (h' : IsBoundary text offset')
    (hlt : offset < offset') :
  ∃ passed c between left, text = passed ++ c :: between ++ left ∧ offset = utf8Length passed ∧
    offset' = utf8Length (passed ++ c :: between)
  := by
  obtain ⟨passed, left, rfl, rfl⟩ := h
  obtain ⟨passed', left', heq, rfl⟩ := h'
  rcases List.append_eq_append_iff.mp heq with ⟨_ | ⟨c, between⟩, rfl, rfl⟩ | ⟨between, rfl, rfl⟩
  · rw [List.append_nil] at hlt
    cases Nat.lt_irrefl _ hlt
  · exact ⟨passed, c, between, left', by simp, rfl, rfl⟩
  · rw [utf8Length_append] at hlt
    omega

namespace Location

/-- The order of reading: lines come first, and columns in a line. -/
def Before (place later : Location) : Prop :=
  Prod.Lex (· < ·) (· < ·) (place.line, place.column) (later.line, later.column)

/-- The order of locations is transitive. -/
theorem Before.trans {first second third : Location} (h : first.Before second)
    (h' : second.Before third) :
  first.Before third
  := by
  rw [Before, Prod.lex_def] at *
  omega

/-- No location comes before itself. -/
theorem Before.ne {place later : Location} (h : place.Before later) :
  place ≠ later
  := by
  rintro rfl
  rw [Before, Prod.lex_def] at h
  omega

/-- A character moves a location on, a line feed too. -/
theorem before_advance (place : Location) (c : Char) :
  place.Before (place.advance c)
  := by
  unfold advance
  split
  · apply Prod.Lex.left _ _ (Nat.lt_succ_self _)
  · apply Prod.Lex.right _ (Nat.lt_succ_self _)

/-- To advance over some text moves a location on. -/
theorem before_foldl_advance (place : Location) (c : Char) (text : List Char) :
  place.Before ((c :: text).foldl advance place)
  := by
  induction text generalizing place c with
  | nil => apply before_advance
  | cons d text ih => exact (before_advance place c).trans (ih (place.advance c) d)

/-- The end of a text in two parts is reached from the end of the first. -/
theorem atEnd_append (first second : List Char) :
  atEnd (first ++ second) = second.foldl advance (atEnd first)
  := by
  induction second generalizing first with
  | nil => rw [List.append_nil, List.foldl_nil]
  | cons c second ih =>
    rw [← List.singleton_append, ← List.append_assoc, ih, atEnd_concat]
    rfl

/-- The location at the end of a text is come to character by character from the first. -/
theorem atEnd_eq_foldl (text : List Char) :
  atEnd text = text.foldl advance start
  := atEnd_append [] text

/-- Of two places in a text the later one has the later location. -/
theorem ofOffset_before (h : IsBoundary text offset) (h' : IsBoundary text offset')
    (hlt : offset < offset') :
  (ofOffset text offset).Before (ofOffset text offset')
  := by
  obtain ⟨passed, c, between, left, rfl, rfl, rfl⟩ := exists_between h h' hlt
  rw [ofOffset_append, List.append_assoc, ofOffset_append, atEnd_append]
  apply before_foldl_advance

/-- No two places in a text have the same location. -/
theorem eq_of_ofOffset_eq (h : IsBoundary text offset) (h' : IsBoundary text offset')
    (heq : ofOffset text offset = ofOffset text offset') :
  offset = offset'
  := by
  rcases Nat.lt_trichotomy offset offset' with hlt | hoffset | hlt
  · cases (ofOffset_before h h' hlt).ne heq
  · apply hoffset
  · cases (ofOffset_before h' h hlt).ne heq.symm

end Location

end Text

namespace Reader

open Read Text

variable {reader reader' : Reader} {e : ReadError}

/-- An error is located in the form that fails, at its first character or behind it. -/
theorem exists_location (hsource : reader.rest <:+ reader.source)
    (hnext : reader.next = (.error e, reader')) :
  ∃ before inside left, reader.source = before ++ inside ++ left ∧
    skipAtmosphere reader.rest = inside ++ left ∧ skipAtmosphere reader.rest ≠ [] ∧
    e.location = some (.atEnd (before ++ inside))
  := by
  obtain ⟨hne, failure, hform⟩ := exists_failure hnext
  rw [next_of_failure hne hform] at hnext
  cases hnext
  obtain ⟨before, hbefore⟩ := (skipAtmosphere_suffix reader.rest).trans hsource
  obtain ⟨inside, hinside⟩ := failure_suffix (startsForm_skipAtmosphere reader.rest) hform
  refine ⟨before, inside, failure.rest, ?_, hinside.symm, hne, ?_⟩
  · rw [← hbefore, ← hinside, List.append_assoc]
  · rw [← hbefore, ← hinside, ← List.append_assoc]
    apply location_locate

/-- The location of a place in a source is the one at which advancing over the characters before it
ends, beginning at the first character of the first line.  It goes up with the offset, first by
lines and then by columns, so that different places have different locations.

However often a reader of the source was called before and whatever the limit on nesting: an error
has the location of exactly one place in the source, and the place is not before the first character
of the form that was read and not past the end of the source. -/
theorem next_located (source : String) (limit : Nat) :
  (∀ passed left, source.toList = passed ++ left →
    Location.ofOffset source.toList (utf8Length passed)
      = passed.foldl Location.advance Location.start) ∧
  (∀ offset offset', IsBoundary source.toList offset → IsBoundary source.toList offset' →
    (offset < offset' →
      (Location.ofOffset source.toList offset).Before (Location.ofOffset source.toList offset')) ∧
    (offset ≠ offset' →
      Location.ofOffset source.toList offset ≠ Location.ofOffset source.toList offset')) ∧
  ∀ m e reader', ((ofSource source limit).after m).next = (.error e, reader') →
    ∃ before c form, source.toList = before ++ c :: form ∧
      skipAtmosphere ((ofSource source limit).after m).rest = c :: form ∧
      ∃ offset, IsBoundary source.toList offset ∧ utf8Length before ≤ offset ∧
        offset ≤ source.utf8ByteSize ∧
        e.location = some (Location.ofOffset source.toList offset) ∧
        ∀ offset', IsBoundary source.toList offset' →
          e.location = some (Location.ofOffset source.toList offset') → offset' = offset
  := by
  refine ⟨?_, ?_, ?_⟩
  · intro passed left hsource
    rw [hsource, Location.ofOffset_append, Location.atEnd_eq_foldl]
  · intro offset offset' h h'
    constructor
    · apply Location.ofOffset_before h h'
    · intro hne heq
      apply hne (Location.eq_of_ofOffset_eq h h' heq)
  · intro m e reader' hnext
    have hsource : ((ofSource source limit).after m).source = source.toList := after_source m _
    have hrest : ((ofSource source limit).after m).rest
        <:+ ((ofSource source limit).after m).source := by
      rw [hsource]
      apply rest_suffix_after List.suffix_rfl
    obtain ⟨before, inside, left, htext, hskip, hne, hlocation⟩ := exists_location hrest hnext
    obtain ⟨c, form, hform⟩ := List.exists_cons_of_ne_nil hne
    rw [hsource] at htext
    have hboundary : IsBoundary source.toList (utf8Length (before ++ inside)) := by
      rw [htext]
      apply isBoundary_append
    have hplace : e.location
        = some (Location.ofOffset source.toList (utf8Length (before ++ inside))) := by
      rw [htext, Location.ofOffset_append, hlocation]
    refine ⟨before, c, form, ?_, hform, _, hboundary, ?_, ?_, hplace, ?_⟩
    · rw [← hform, hskip, htext, List.append_assoc]
    · rw [utf8Length_append]
      apply Nat.le_add_right
    · rw [← utf8Length_toList]
      apply hboundary.le
    · intro offset' hboundary' hlocation'
      apply Location.eq_of_ofOffset_eq hboundary' hboundary
      apply Option.some.inj (hlocation'.symm.trans hplace)

end Reader

end PocketLisp
