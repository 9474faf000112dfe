import PocketLisp.Proofs.Read.Legible

/-!
# The limit of nesting

What is read under one limit can be compared with what is read under another.  A text that gives a
value under some limit gives the same value, and leaves the same text, under every limit that the
nesting of the value does not exceed; and under every lower limit the failure says that it is nested
too deeply, whatever else could be said of the text.

The walk goes along the reading that succeeds; at each form and each row of items it says what the
reading under another limit does there.
-/

namespace PocketLisp.Read

open Value (itemsNesting)

variable {depth : Nat} {text start : List Char} {collection : Collection} {before : List Value}

/-- If a reading of a form at a depth has a value, then under any limit that allows the depth the
text is read likewise, as far as the nesting of the value is allowed. -/
def FormWithin (depth : Nat) (text : List Char) (result : Result Value) : Prop :=
  ∀ v rest, result = .ok (v, rest) → ∀ {limit fuel : Nat}, depth ≤ limit →
    2 * text.length + 1 ≤ fuel →
    ReadsWithin limit (depth + v.nesting) (formAt limit fuel depth text) v rest

/-- If a reading of items at a depth has a result, there are items of its own in it behind those
before; and under any limit that allows the depth they are read likewise, as far as the nesting of
these items is allowed. -/
def ItemsWithin (depth : Nat) (collection : Collection) (start : List Char) (before : List Value)
    (text : List Char) (result : Result (List Value)) : Prop :=
  ∀ items rest, result = .ok (items, rest) → ∃ own, items = before.reverse ++ own ∧
    ∀ {limit fuel : Nat}, depth ≤ limit → 2 * text.length + 2 ≤ fuel →
      ReadsWithin limit (depth + itemsNesting own)
        (itemsAt limit fuel depth collection start before text) items rest

namespace FormWithin

/-- There is no form in a failure. -/
theorem of_error (failure : Failure) :
  FormWithin depth text (.error failure)
  := nofun

/-- What is no collection is read without regard to the limit. -/
theorem of_atom {result : Result Value}
    (h : ∀ limit fuel, formAt limit (fuel + 1) depth text = result)
    (hlegible : FormLegible 0 0 result) :
  FormWithin depth text result
  := by
  intro v rest hresult limit fuel hdepth hfuel
  obtain ⟨fuel, rfl⟩ := Nat.exists_eq_succ_of_ne_zero (Nat.ne_zero_of_lt hfuel)
  have hnesting : v.nesting = 0 := Nat.le_zero.mp (hlegible v rest hresult).nesting_le
  rw [hnesting]
  apply ReadsWithin.of_ok hdepth
  rw [h, hresult]

/-- A collection is read within a limit if its items are. -/
theorem of_items {items : Result (List Value)}
    (h : ItemsWithin (depth + 1) collection (collection.opening :: text) [] text items) :
  FormWithin depth (collection.opening :: text)
    (items.bind fun read =>
      conclude (collection.opening :: text) read.2 (collection.value read.1))
  := by
  intro v rest hresult limit fuel hdepth hfuel
  obtain ⟨fuel, rfl⟩ := Nat.exists_eq_succ_of_ne_zero (Nat.ne_zero_of_lt hfuel)
  obtain ⟨⟨its, rest'⟩, rfl, hconclude⟩ := exists_of_bind_eq_ok hresult
  obtain ⟨hvalue, rfl⟩ := conclude_eq_ok hconclude
  obtain ⟨own, rfl, hitems⟩ := h its rest' rfl
  obtain ⟨hparts, -, hnesting⟩ := parts_of_value hvalue
  apply readsWithin_collection hvalue (hparts ▸ hnesting)
  intro hlt
  apply hitems hlt
  rw [List.length_cons] at hfuel
  omega

end FormWithin

namespace ItemsWithin

/-- There are no items in a failure. -/
theorem of_error (failure : Failure) :
  ItemsWithin depth collection start before text (.error failure)
  := nofun

/-- At the closing delimiter the items are those before. -/
theorem of_closing {rest : List Char} (h : skipAtmosphere text = collection.closing :: rest) :
  ItemsWithin depth collection start before text (.ok (before.reverse, rest))
  := by
  rintro _ _ ⟨⟩
  use [], (List.append_nil _).symm
  intro limit fuel hdepth hfuel
  obtain ⟨fuel, rfl⟩ := Nat.exists_eq_succ_of_ne_zero (Nat.ne_zero_of_lt hfuel)
  apply ReadsWithin.of_ok hdepth
  apply itemsAt_of_closing _ _ _ _ _ _ h

/-- If an item is read alike within a limit, and so are those behind it, they are together. -/
theorem of_item {c : Char} {rest : List Char} (h : skipAtmosphere text = c :: rest)
    (hc : c ≠ collection.closing) {form : Result Value} (hform : FormWithin depth (c :: rest) form)
    (hleaves : Leaves (c :: rest) rest form) {next : Value × List Char → Result (List Value)}
    (hnext : ∀ v rest', form = .ok (v, rest') →
      ItemsWithin depth collection start (v :: before) rest' (next (v, rest'))) :
  ItemsWithin depth collection start before text (form.bind next)
  := by
  intro items rest'' hresult
  obtain ⟨⟨v, rest'⟩, rfl, hitems⟩ := exists_of_bind_eq_ok hresult
  obtain ⟨own, rfl, hown⟩ := hnext v rest' rfl items rest'' hitems
  use v :: own
  constructor
  · rw [List.reverse_cons, List.append_assoc, List.singleton_append]
  · intro limit fuel hdepth hfuel
    obtain ⟨fuel, rfl⟩ := Nat.exists_eq_succ_of_ne_zero (Nat.ne_zero_of_lt hfuel)
    have hlength : (c :: rest).length ≤ text.length :=
      (h ▸ skipAtmosphere_suffix text : c :: rest <:+ text).length_le
    have hshorter : rest'.length ≤ rest.length := (hleaves.ok rfl).length_le
    rw [List.length_cons] at hlength
    rw [itemsAt_of_item _ _ _ _ _ _ h hc, itemsNesting, ← Nat.add_max_add_left]
    have hread : ReadsWithin limit (depth + v.nesting) (formAt limit fuel depth (c :: rest)) v
        rest' := by
      apply hform v rest' rfl hdepth
      rw [List.length_cons]
      omega
    apply hread.bind
    apply hown hdepth
    omega

end ItemsWithin

/-- To be read alike within a limit is closed under the rules of reading. By this walk along the reading it
holds of all forms. -/
theorem closedUnderReading_within (limit : Nat) :
  ClosedUnderReading limit FormWithin ItemsWithin
  where
  empty _ := .of_error _
  token {c} hc depth text := by
    apply FormWithin.of_atom fun limit fuel => formAt_token hc limit fuel depth text
    apply FormLegible.of_token hc
  string depth text := by
    apply FormWithin.of_atom fun limit fuel => formAt_quote limit fuel depth text
    apply FormLegible.stringFrom
  character depth text := by
    apply FormWithin.of_atom fun limit fuel => formAt_backslash limit fuel depth text
    apply FormLegible.charAfter
  stray _ _ _ := .of_error _
  tooDeep _ _ _ := .of_error _
  collection _ := FormWithin.of_items
  unclosed _ _ _ _ _ _ := .of_error _
  closed _ _ _ _ _ _ := ItemsWithin.of_closing
  item h hc _ := ItemsWithin.of_item h hc

/-- What another limit makes of a text that is read under some limit. -/
theorem readsWithin_of_form {limit : Nat} (hstart : StartsForm text) {v : Value} {rest : List Char}
    (h : form limit text = .ok (v, rest)) (limit' : Nat) :
  ReadsWithin limit' v.nesting (form limit' text) v rest
  := by
  have hwithin := (closedUnderReading_within limit).form hstart v rest h (Nat.zero_le limit') le_rfl
  rwa [Nat.zero_add] at hwithin

/-- If a text is read under some limit, then under any limit it is read likewise if the nesting of
the value does not exceed it, and is nested too deeply otherwise.  So it is read likewise under all
greater limits. -/
theorem form_limit_exact {limit : Nat} (hstart : StartsForm text) {v : Value} {rest : List Char}
    (h : form limit text = .ok (v, rest)) (limit' : Nat) :
  (v.nesting ≤ limit' → form limit' text = .ok (v, rest)) ∧
  (limit' < v.nesting →
    ∃ failure, form limit' text = .error failure ∧ failure.fault.kind = .tooDeeplyNested) ∧
  (limit ≤ limit' → form limit' text = .ok (v, rest))
  := by
  have hread := readsWithin_of_form hstart h limit'
  refine ⟨hread.ok, hread.too_deep, ?_⟩
  intro hle
  apply hread.ok
  -- Under the limit itself it is read, and so the nesting of the value does not exceed it.
  by_contra hlt
  obtain ⟨failure, hfailure, -⟩ :=
    (readsWithin_of_form hstart h limit).too_deep (hle.trans_lt (Nat.lt_of_not_le hlt))
  rw [h] at hfailure
  cases hfailure

/-- A list in a key of a map in a vector, with a comment in it and more behind it. -/
theorem form_limit_exact_listInKey :
  ∃ text v rest, text = "[\x7b(a),b\x7d ;]\n] c".toList ∧ v.text = "[\x7b(a) b\x7d]" ∧
    form 7 text = .ok (v, rest) ∧ form 3 text = .ok (v, rest) ∧
    ∃ failure, form 2 text = .error failure ∧ failure.fault.kind = .tooDeeplyNested
  := by
  obtain ⟨text, htext⟩ : ∃ text, text = "[\x7b(a),b\x7d ;]\n] c".toList := ⟨_, rfl⟩
  have hstart : StartsForm text := by
    rw [htext]
    rintro _ ⟨⟩
    decide
  have hread : (form 7 text).toOption.any
      fun read => read.1.nesting = 3 ∧ read.1.text = "[\x7b(a) b\x7d]" := by
    rw [htext]
    decide +kernel
  cases hform : form 7 text with
  | error failure =>
    rw [hform] at hread
    cases hread
  | ok read =>
    rw [hform] at hread
    obtain ⟨v, rest⟩ := read
    obtain ⟨hnesting, hv⟩ := of_decide_eq_true hread
    refine ⟨text, v, rest, htext, hv, hform, ?_, ?_⟩
    · apply (form_limit_exact hstart hform 3).1 hnesting.le
    · apply (form_limit_exact hstart hform 2).2.1
      rw [hnesting]
      decide

end PocketLisp.Read
