import PocketLisp.Proofs.Read.Recovery

/-!
# Progress of readers

Every call that returns a form or an error takes at least one character of the source, whatever
is wrong with the form and however small the limit on nesting.  So a reader comes to the end of
its source after no more results than the source has characters, and there it stays.
-/

namespace PocketLisp

/-- The bytes of a text in UTF-8 are those of its characters. -/
theorem Text.utf8Length_toList (source : String) :
  utf8Length source.toList = source.utf8ByteSize
  := by
  rw [← String.ofList_toList (s := source), String.utf8ByteSize_ofList, String.toList_ofList]
  induction source.toList with
  | nil => rfl
  | cons c text ih => rw [utf8Length_cons, ih, String.utf8Len_cons, Nat.add_comm]

namespace Reader

open Read

variable {reader : Reader}

/-! ### Offsets -/

/-- The offset of a reader is the length of what it has passed. -/
theorem offset_of_append (reader : Reader) {passed : List Char} (h : reader.source = passed ++ reader.rest) :
  reader.offset = Text.utf8Length passed
  := by
  rw [offset, h, Text.utf8Length_append, Nat.add_sub_cancel]

/-- A call that does not end the reader moves its offset on. -/
theorem offset_lt_next (h : reader.rest <:+ reader.source) (hnext : reader.next.1 ≠ .ok none) :
  reader.offset < reader.next.2.offset
  := by
  rcases next_cases reader with hend | ⟨-, c, text, hform, hrest⟩
  · rw [hend] at hnext
    contradiction
  · obtain ⟨before, hbefore⟩ := h
    obtain ⟨after, hafter⟩ := (next_rest_suffix reader).trans ⟨before, hbefore⟩
    have hlength : reader.next.2.rest.length < reader.rest.length := by
      have hform := hform.length_le
      rw [List.length_cons] at hform
      apply hrest.length_le.trans_lt hform
    have hnextSource : reader.next.2.source = after ++ reader.next.2.rest := by
      rw [next_source, hafter]
    rw [offset_of_append reader hbefore.symm, offset_of_append reader.next.2 hnextSource]
    apply Text.utf8Length_lt _ hlength
    rw [hbefore, hafter]

/-! ### The end of a source -/

/-- A call that returns neither a form nor an error leaves nothing. -/
theorem next_eq_of_none (h : reader.next.1 = .ok none) :
  reader.next = (.ok none, { reader with rest := [] })
  := by
  rcases next_cases reader with hend | ⟨hne, -⟩
  · apply hend
  · contradiction

/-- After a call that returns neither a form nor an error no call does. -/
theorem next_after_none (h : reader.next.1 = .ok none) (n : Nat) :
  (reader.after n).next.1 = .ok none
  := by
  induction n generalizing reader with
  | zero => apply h
  | succ n ih =>
    rw [after, next_eq_of_none h]
    apply ih rfl

/-- There are as many results as there are calls before the first that returns no form; with as
much fuel as there are characters none is missing. -/
theorem length_outcomes (reader : Reader) {fuel : Nat} (hfuel : reader.rest.length ≤ fuel) :
  (outcomes fuel reader).length ≤ reader.rest.length ∧
    ∀ m, (reader.after m).next.1 = .ok none ↔ (outcomes fuel reader).length ≤ m
  := by
  induction fuel generalizing reader with
  | zero =>
    have hnil := List.eq_nil_of_length_eq_zero (Nat.eq_zero_of_le_zero hfuel)
    have hnone : reader.next.1 = .ok none := by
      rw [next_of_end]
      rw [hnil]
      rfl
    simp [outcomes, next_after_none hnone]
  | succ fuel ih =>
    rcases next_cases reader with hend | ⟨hne, c, text, hform, hrest⟩
    · have hnone : reader.next.1 = .ok none := by rw [hend]
      simp [outcomes, hend, next_after_none hnone]
    · have hlength : (outcomes (fuel + 1) reader).length
          = (outcomes fuel reader.next.2).length + 1 := by
        rw [outcomes]
        split
        next heq =>
          rw [heq] at hne
          contradiction
        next heq => rw [heq, List.length_cons]
        next heq => rw [heq, List.length_cons]
      have hform := hform.length_le
      have hrest := hrest.length_le
      rw [List.length_cons] at hform
      obtain ⟨ihLength, ihEnd⟩ := ih reader.next.2 (by omega)
      rw [hlength]
      constructor
      · omega
      · rintro (_ | m)
        · simp [after, hne]
        · rw [after, ihEnd, Nat.add_le_add_iff_right]

/-! ### All calls -/

/-- However often a reader is called and whatever the limit on nesting: it stands between two
characters of its source; a call that returns a form or an error moves it on; after a call that
returns neither, it stands at the end for good.  The first such call comes after as many others as
there are results, which are no more than the characters of the source. -/
theorem next_advances (source : String) (limit : Nat) :
  (∀ m, ∃ passed left, source.toList = passed ++ left ∧
      ((ofSource source limit).after m).offset = Text.utf8Length passed) ∧
    (∀ m, ((ofSource source limit).after m).next.1 ≠ .ok none →
      ((ofSource source limit).after m).offset < ((ofSource source limit).after (m + 1)).offset) ∧
    (∀ m, ((ofSource source limit).after m).next.1 = .ok none →
      ∀ k > m, ((ofSource source limit).after k).offset = source.utf8ByteSize ∧
        ((ofSource source limit).after k).next.1 = .ok none) ∧
    (ofSource source limit).all.length ≤ source.length ∧
    ∀ m, ((ofSource source limit).after m).next.1 = .ok none ↔
      (ofSource source limit).all.length ≤ m
  := by
  have hsource (m : Nat) : ((ofSource source limit).after m).source = source.toList :=
    after_source m _
  have hrest (m : Nat) :
      ((ofSource source limit).after m).rest <:+ ((ofSource source limit).after m).source := by
    rw [hsource]
    apply rest_suffix_after List.suffix_rfl
  obtain ⟨hlength, hend⟩ := length_outcomes (ofSource source limit) le_rfl
  refine ⟨?_, ?_, ?_, hlength, hend⟩
  · intro m
    obtain ⟨passed, hpassed⟩ := hrest m
    rw [← hsource m]
    exact ⟨passed, _, hpassed.symm, offset_of_append _ hpassed.symm⟩
  · intro m hne
    rw [after_succ]
    apply offset_lt_next (hrest m) hne
  · intro m hnone k hk
    obtain ⟨k, rfl⟩ := Nat.exists_eq_succ_of_ne_zero (Nat.ne_zero_of_lt hk)
    have hnone (j : Nat) (hj : m ≤ j) : ((ofSource source limit).after j).next.1 = .ok none := by
      rw [hend] at hnone ⊢
      apply hnone.trans hj
    have hpassed : ((ofSource source limit).after (k + 1)).source
        = source.toList ++ ((ofSource source limit).after (k + 1)).rest := by
      rw [hsource, after_succ, next_eq_of_none (hnone k (Nat.le_of_lt_succ hk)), List.append_nil]
    refine ⟨?_, hnone _ hk.le⟩
    rw [offset_of_append _ hpassed, Text.utf8Length_toList]

end Reader

end PocketLisp
