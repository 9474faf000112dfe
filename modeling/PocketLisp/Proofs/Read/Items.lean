import PocketLisp.Proofs.Read.Recovery
import PocketLisp.Proofs.Read.Stability

/-!
# Reading item by item

A source may be written as items with gaps between them.  An item is well formed as far as its
extent goes, whatever is wrong inside; a gap holds separators and comments.  A reader takes the
items one by one, with the outcome that each has alone, and is behind the item each time.

One call of `next` passes a gap and an item; the rest is an induction on the items.
-/

namespace PocketLisp

namespace Read

/-! ### Gaps -/

/-- Separators and comments, each comment with the character that ends it. -/
inductive Gap : List Char → Prop
  | nil : Gap []
  | separator {c : Char} (hc : isSeparator c) {text : List Char} (h : Gap text) : Gap (c :: text)
  | comment {body : List Char} (hbody : ∀ d ∈ body, endsLine d = false) {c : Char}
      (hc : endsLine c) {text : List Char} (h : Gap text) :
    Gap (';' :: (body ++ c :: text))

/-- A comment is skipped up to the character that ends it. -/
theorem skipAtmosphereFrom_comment {body : List Char} (hbody : ∀ d ∈ body, endsLine d = false)
    {c : Char} (hc : endsLine c) (text : List Char) :
  skipAtmosphereFrom true (body ++ c :: text) = skipAtmosphere text
  := by
  induction body with
  | nil => rw [List.nil_append, skipAtmosphereFrom, ← not_endsLine, hc]; rfl
  | cons d body ih =>
    rw [List.forall_mem_cons] at hbody
    rw [List.cons_append, skipAtmosphereFrom, ← not_endsLine, hbody.1]
    apply ih hbody.2

/-- A gap is skipped. -/
theorem Gap.skipAtmosphere {gap : List Char} (h : Gap gap) (text : List Char) :
  skipAtmosphere (gap ++ text) = skipAtmosphere text
  := by
  induction h with
  | nil => rfl
  | separator hc h ih =>
    rw [← ih, List.cons_append, Read.skipAtmosphere, skipAtmosphereFrom, if_pos hc]
    rfl
  | comment hbody hc h ih =>
    rw [← ih, List.cons_append, List.append_assoc]
    apply skipAtmosphereFrom_comment hbody hc

/-- A gap ends the token before it. -/
theorem Gap.follows {gap : List Char} (h : Gap gap) :
  Follows gap
  := by
  cases h with
  | nil => apply follows_nil
  | separator hc h =>
    apply follows_cons
    rw [endsToken, hc, Bool.true_or]
  | comment => apply follows_cons rfl

/-! ### Items -/

/-- What is inert without comments is inert whatever ends comments. -/
theorem Inert.of_never {ends : Char → Bool} {piece : List Char}
    (h : Inert (fun _ => false) piece) :
  Inert ends piece
  := by
  cases h with
  | string h => apply Inert.string h
  | character c => apply Inert.character
  | comment _ hc => cases hc
  | other h => apply Inert.other h

/-- What closes collections without comments does so whatever ends comments. -/
theorem Closes.of_never {ends : Char → Bool} {depth : Nat} {text : List Char}
    (h : Closes (fun _ => false) depth text) :
  Closes ends depth text
  := by
  induction h with
  | closed => apply Closes.closed
  | opening collection _ ih => apply Closes.opening collection ih
  | closing collection _ ih => apply Closes.closing collection ih
  | inert hpiece _ ih => apply Closes.inert hpiece.of_never ih

/-- Where there are no comments it is of no account how they end. -/
theorem Enclosed.of_never {ends : Char → Bool} {form : List Char}
    (h : Enclosed (fun _ => false) form) :
  Enclosed ends form
  := by
  cases h with
  | collection collection h => apply Enclosed.collection collection h.of_never
  | string h => apply Enclosed.string h
  | stray collection => apply Enclosed.stray

/-- Texts without comments that are forms as far as their extent goes: tokens, character literals,
strings, closing delimiters, and collections whose delimiters balance. -/
def IsItem (text : List Char) : Prop :=
  Enclosed (fun _ => false) text ∨ Bare text

namespace IsItem

variable {item : List Char} (h : IsItem item)
include h

/-- An item ends where it does whatever ends comments. -/
theorem endOf (ends : Char → Bool) {rest : List Char} (hrest : Follows rest) :
  endOf ends 0 (item ++ rest) = some rest
  := by
  rcases h with h | h
  · apply h.of_never.endOf
  · apply h.endOf hrest

/-- An item begins with a character that is neither a separator nor a semicolon. -/
theorem exists_cons :
  ∃ c tail, item = c :: tail ∧ isSeparator c = false ∧ c ≠ ';'
  := by
  rcases h with (⟨collection, _⟩ | _ | collection) | (⟨hne, htoken⟩ | _)
  · refine ⟨_, _, rfl, ?_⟩
    cases collection <;> decide
  · exact ⟨_, _, rfl, by decide⟩
  · refine ⟨_, _, rfl, ?_⟩
    cases collection <;> decide
  · obtain ⟨c, tail, rfl⟩ := List.exists_cons_of_ne_nil hne
    have hc := htoken c List.mem_cons_self
    exact ⟨c, tail, rfl, (Bool.or_eq_false_iff.mp hc).1, ne_of_endsToken hc rfl⟩
  · exact ⟨_, _, rfl, by decide⟩

/-- A form begins where an item does. -/
theorem startsForm (rest : List Char) :
  StartsForm (item ++ rest)
  := by
  obtain ⟨c, tail, rfl, hc⟩ := h.exists_cons
  rintro _ ⟨⟩
  apply hc

/-- Before an item there is nothing to be skipped. -/
theorem skipAtmosphere (rest : List Char) :
  skipAtmosphere (item ++ rest) = item ++ rest
  := skipAtmosphere_eq_self (h.startsForm rest)

/-- Behind an item nothing of it is skipped. -/
theorem skipForm {rest : List Char} (hrest : Follows rest) :
  skipForm (item ++ rest) = rest
  := by
  rw [skipForm_eq (h.startsForm rest), h.endOf isLineFeed hrest, Option.getD_some]

/-- An item is read to its end, or it is wrong; it is not incomplete. -/
theorem form (limit : Nat) :
  (∃ v, form limit item = .ok (v, [])) ∨
    ∃ failure, form limit item = .error failure ∧ failure.fault.kind ≠ .incomplete
  := by
  have hstart := h.startsForm []
  have hend := h.endOf endsLine follows_nil
  rw [List.append_nil] at hstart hend
  have hdelimits := delimits_form limit hstart
  cases hform : Read.form limit item with
  | ok read =>
    left
    have hrest := hdelimits.ok hform
    rw [hend] at hrest
    use read.1
    rw [Option.some.inj hrest]
  | error failure =>
    right
    use failure, rfl
    intro hkind
    rw [hdelimits.incomplete hform hkind] at hend
    cases hend

end IsItem

/-! ### Segments -/

/-- An item and the gap behind it. -/
structure Segment where
  item : List Char
  gap : List Char
  isItem : IsItem item
  isGap : Gap gap

namespace Segment

/-- The text of a segment. -/
def text (segment : Segment) : List Char :=
  segment.item ++ segment.gap

/-- A gap and then segments, as a source. -/
def source (lead : List Char) (segments : List Segment) : String :=
  String.ofList (lead ++ segments.flatMap text)

/-- The segments before one, its item, and what is behind that. -/
theorem flatMap_text {segments : List Segment} {i : Nat} (hi : i < segments.length) :
  segments.flatMap text
    = (segments.take i).flatMap text ++ segments[i].item ++
        (segments[i].gap ++ (segments.drop (i + 1)).flatMap text)
  := by
  conv_lhs => rw [← List.take_append_drop i segments, List.drop_eq_getElem_cons hi]
  rw [List.flatMap_append, List.flatMap_cons, text, List.append_assoc, List.append_assoc]

end Segment

end Read

namespace Reader

open Read

/-! ### Calls of a reader -/

/-- Whether a call of `next` has the outcome of reading a text that has to be one form: the same
value, or an error with the same fault, so the same kind and message, and the same text found.
The place of the error is another one. -/
def SameOutcome : Except ReadError (Option Value) → Except ReadError Value → Prop
  | .ok (some v), .ok w => v = w
  | .error e, .error e' => e.fault = e'.fault ∧ e.found = e'.found
  | _, _ => False

/-- A reader that has come to its last gap finds no form any more. -/
theorem next_after_gap {reader : Reader} (h : Gap reader.rest) (n : Nat) :
  (reader.after n).next.1 = .ok none
  := by
  have hskip : skipAtmosphere reader.rest = [] := by
    rw [← List.append_nil reader.rest, h.skipAtmosphere]
    rfl
  induction n generalizing reader with
  | zero => rw [after, next_of_end hskip]
  | succ n ih =>
    rw [after, next_of_end hskip]
    apply ih Gap.nil rfl

/-- A text that is read as a form to its end is one form. -/
theorem readOne_of_form {text : List Char} {v : Value} (hskip : skipAtmosphere text = text)
    (h : form nestingLimit text = .ok (v, [])) :
  readOne (String.ofList text) = .ok v
  := by
  rw [← hskip] at h
  rw [readOne, ofSource, String.toList_ofList, next_of_form h]
  rfl

/-- A text that fails to be read as a form fails to be one form, with the same fault. -/
theorem readOne_of_failure {text : List Char} {failure : Failure}
    (hskip : skipAtmosphere text = text) (hne : text ≠ [])
    (h : form nestingLimit text = .error failure) :
  readOne (String.ofList text) = .error (locate text failure)
  := by
  rw [← hskip] at h hne
  rw [readOne, ofSource, String.toList_ofList, next_of_failure hne h]

/-- One call passes a gap and an item, and its outcome is the outcome of the item alone. -/
theorem next_item {reader : Reader} {gap item rest : List Char}
    (hreader : reader.rest = gap ++ (item ++ rest)) (hlimit : reader.limit = nestingLimit)
    (hgap : Gap gap) (hitem : IsItem item) (hrest : Follows rest) :
  SameOutcome reader.next.1 (readOne (String.ofList item)) ∧
    reader.next.2 = ⟨reader.source, rest, nestingLimit⟩
  := by
  have hstart := hitem.startsForm []
  have halone := hitem.skipAtmosphere []
  rw [List.append_nil] at hstart halone
  have hskip : skipAtmosphere reader.rest = item ++ rest := by
    rw [hreader, hgap.skipAtmosphere, hitem.skipAtmosphere]
  have hextends := form_extends_of_follows nestingLimit hstart hrest
  rw [← hskip, ← hlimit] at hextends
  obtain ⟨c, tail, hcons, -⟩ := hitem.exists_cons
  rcases hitem.form nestingLimit with ⟨v, hform⟩ | ⟨failure, hform, hkind⟩
  · rw [next_of_form (hextends.ok (hlimit ▸ hform)), readOne_of_form halone hform, hlimit]
    exact ⟨rfl, rfl⟩
  · have hne : skipAtmosphere reader.rest ≠ [] := by
      rw [hskip, hcons]
      apply List.cons_ne_nil
    rw [next_of_failure hne (hextends.error (hlimit ▸ hform) hkind), if_neg hkind,
      readOne_of_failure halone (hcons ▸ List.cons_ne_nil c tail) hform, hskip,
      hitem.skipForm hrest, hlimit]
    exact ⟨⟨rfl, rfl⟩, rfl⟩

/-- What is behind an item in a row of segments ends the token before it. -/
theorem follows_segments {segment : Segment} {segments : List Segment}
    (hgaps : ∀ s ∈ (segment :: segments).dropLast, s.gap ≠ []) :
  Follows (segment.gap ++ segments.flatMap Segment.text)
  := by
  cases segments with
  | nil =>
    rw [List.flatMap_nil, List.append_nil]
    apply segment.isGap.follows
  | cons next segments =>
    have hgap : segment.gap ≠ [] := hgaps segment List.mem_cons_self
    obtain ⟨c, gap, heq⟩ := List.exists_cons_of_ne_nil hgap
    have hfollows := segment.isGap.follows
    rw [heq] at hfollows ⊢
    apply follows_cons (hfollows c rfl)

/-- A run over segments: call by call the reader has the outcomes of the items, and each time it
is behind the item. -/
theorem after_segments {reader : Reader} {lead : List Char} {segments : List Segment}
    (hreader : reader.rest = lead ++ segments.flatMap Segment.text)
    (hlimit : reader.limit = nestingLimit) (hlead : Gap lead)
    (hgaps : ∀ s ∈ segments.dropLast, s.gap ≠ []) :
  (∀ i (hi : i < segments.length),
      SameOutcome (reader.after i).next.1 (readOne (String.ofList segments[i].item)) ∧
        (reader.after (i + 1)).rest
          = segments[i].gap ++ (segments.drop (i + 1)).flatMap Segment.text) ∧
    ∀ n, segments.length ≤ n → (reader.after n).next.1 = .ok none
  := by
  induction segments generalizing reader lead with
  | nil =>
    rw [List.flatMap_nil, List.append_nil] at hreader
    constructor
    · intro i hi
      cases hi
    · intro n _
      apply next_after_gap (hreader ▸ hlead)
  | cons segment segments ih =>
    rw [List.flatMap_cons, Segment.text, List.append_assoc] at hreader
    obtain ⟨houtcome, hnext⟩ := next_item hreader hlimit hlead segment.isItem
      (follows_segments hgaps)
    have htail : ∀ s ∈ segments.dropLast, s.gap ≠ [] := by
      intro s hs
      apply hgaps s
      cases segments with
      | nil => cases hs
      | cons => apply List.mem_cons_of_mem _ hs
    obtain ⟨ihReads, ihEnd⟩ := ih (congrArg Reader.rest hnext) (congrArg Reader.limit hnext)
      segment.isGap htail
    constructor
    · intro i hi
      cases i with
      | zero => exact ⟨houtcome, congrArg Reader.rest hnext⟩
      | succ i => apply ihReads i (Nat.lt_of_succ_lt_succ hi)
    · intro n hn
      cases n with
      | zero => cases hn
      | succ n => apply ihEnd n (Nat.le_of_succ_le_succ hn)

/-- A reader of items with gaps between them returns as many outcomes as there are items, and then
no form for ever.  Each outcome is that of reading the item alone, and the offset after it is the
end of the item. -/
theorem next_segments {lead : List Char} {segments : List Segment} (hlead : Gap lead)
    (hgaps : ∀ s ∈ segments.dropLast, s.gap ≠ []) :
  (∀ i (hi : i < segments.length),
      SameOutcome ((ofSource (Segment.source lead segments) nestingLimit).after i).next.1
          (readOne (String.ofList segments[i].item)) ∧
        ((ofSource (Segment.source lead segments) nestingLimit).after (i + 1)).offset
          = Text.utf8Length (lead ++ (segments.take i).flatMap Segment.text ++ segments[i].item)) ∧
    ∀ n, segments.length ≤ n →
      ((ofSource (Segment.source lead segments) nestingLimit).after n).next.1 = .ok none
  := by
  have hstart : (ofSource (Segment.source lead segments) nestingLimit).rest
      = lead ++ segments.flatMap Segment.text := by
    rw [ofSource, Segment.source, String.toList_ofList]
  have hsource : (ofSource (Segment.source lead segments) nestingLimit).source
      = lead ++ segments.flatMap Segment.text := hstart
  obtain ⟨hreads, hend⟩ := after_segments hstart rfl hlead hgaps
  constructor
  · intro i hi
    obtain ⟨houtcome, hrest⟩ := hreads i hi
    use houtcome
    rw [offset, after_source, hrest, hsource, Segment.flatMap_text hi, ← List.append_assoc lead,
      ← List.append_assoc lead, Text.utf8Length_append _ (segments[i].gap ++ _),
      Nat.add_sub_cancel]
  · apply hend

/-- A comment, a list that holds a reserved character and is closed by another delimiter, a string
with a semicolon, and a token that is no number. -/
theorem next_segments_mixed :
  ∃ segments, Segment.source ";c\r".toList segments = ";c\r(a @],\"x;\" 1y" ∧
    Gap ";c\r".toList ∧ (∀ s ∈ segments.dropLast, s.gap ≠ []) ∧
    ((ofSource (Segment.source ";c\r".toList segments) nestingLimit).after 1).offset = 8 ∧
    ((ofSource (Segment.source ";c\r".toList segments) nestingLimit).after 3).next.1 = .ok none
  := by
  have hlead : Gap ";c\r".toList :=
    @Gap.comment ['c'] (List.forall_mem_singleton.mpr rfl) '\r' rfl [] .nil
  have hlist : IsItem "(a @]".toList := by
    left
    apply Enclosed.collection .list
    rw [closes_iff]
    decide +kernel
  have hstring : IsItem "\"x;\"".toList :=
    .inl (.string (.char (by decide) (by decide) (.char (by decide) (by decide) .quote)))
  have hnumber : IsItem "1y".toList := by
    right
    apply @Bare.token ['1', 'y'] (List.cons_ne_nil _ _)
    rw [List.forall_mem_cons, List.forall_mem_singleton]
    exact ⟨rfl, rfl⟩
  let segments : List Segment :=
    [⟨_, [','], hlist, .separator rfl .nil⟩, ⟨_, [' '], hstring, .separator rfl .nil⟩,
      ⟨_, [], hnumber, .nil⟩]
  have hgaps : ∀ s ∈ segments.dropLast, s.gap ≠ [] := by
    simp [segments]
  have hsource : Segment.source ";c\r".toList segments = ";c\r(a @],\"x;\" 1y" := by
    simp [segments, Segment.source, Segment.text]
  have hoffset : Text.utf8Length (";c\r".toList ++ [] ++ "(a @]".toList) = 8 := by
    decide +kernel
  obtain ⟨hreads, hend⟩ := next_segments hlead hgaps
  exact ⟨segments, hsource, hlead, hgaps, (hreads 0 (Nat.succ_pos 2)).2.trans hoffset,
    hend 3 le_rfl⟩

end Reader

end PocketLisp
