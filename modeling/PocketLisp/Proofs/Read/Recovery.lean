import PocketLisp.Proofs.Read.Extent
import PocketLisp.Read.Reader

/-!
# Reading on after a failure

A form that is read ends where its extent ends, a form is incomplete only if it has no end, and
any other fault is found before the end.  So after a failure reading goes on behind the place of
the fault; but it may go on too early or too late if a comment of the form ends with a carriage
return alone.
-/

namespace PocketLisp

namespace Read

/-! ### Forms that are read -/

/-- A token with a fault is not incomplete. -/
theorem kind_of_tokenVerdict {token : List Char} {fault : ReadFault}
    (h : tokenVerdict token = .error fault) :
  fault.kind ≠ .incomplete
  := by
  rw [tokenVerdict] at h
  split at h
  · rw [numeralVerdict] at h
    split at h
    · cases h
    · split at h
      · cases h
      · cases h
        rintro ⟨⟩
  · split at h
    · cases h
      rintro ⟨⟩
    · rw [wordVerdict] at h
      split at h
      · cases h
        rintro ⟨⟩
      · cases h

/-- A character literal with a fault is not incomplete. -/
theorem kind_of_charVerdict {first : Char} {tail : List Char} {fault : ReadFault}
    (h : charVerdict first tail = .error fault) :
  fault.kind ≠ .incomplete
  := by
  rw [charVerdict.eq_def] at h
  split at h
  · cases h
  · cases h
    rintro ⟨⟩
  · split at h
    · cases h
    · cases h
      rintro ⟨⟩

/-- A map literal with a fault has its closing delimiter, and is not incomplete. -/
theorem kind_of_mapEntries {entries : Entries} {items : List Value} {fault : ReadFault}
    (h : mapEntries entries items = .error fault) :
  fault.kind ≠ .incomplete
  := by
  fun_induction mapEntries entries items with
  | case1 => cases h
  | case2 =>
    cases h
    rintro ⟨⟩
  | case3 entries key value items _ ih => apply ih h
  | case4 =>
    cases h
    rintro ⟨⟩

/-- No more is a collection of any kind. -/
theorem kind_of_value {collection : Collection} {items : List Value} {fault : ReadFault}
    (h : collection.value items = .error fault) :
  fault.kind ≠ .incomplete
  := by
  cases collection with
  | list => cases h
  | vector => cases h
  | map =>
    rw [Collection.value, mapOfItems] at h
    split at h
    · cases hentries : mapEntries [] items with
      | ok entries =>
        rw [hentries] at h
        cases h
      | error fault' =>
        rw [hentries] at h
        cases h
        apply kind_of_mapEntries hentries
    · cases h
      rintro ⟨⟩

/-- A result agrees with the end of the text that is read: after it follows what follows after
the rest, an incomplete text has no end, and any other fault is before the end. -/
structure Delimits {α : Type} (ending : Option (List Char))
    (after : List Char → Option (List Char)) (result : Result α) : Prop where
  ok : ∀ {a : α} {rest : List Char}, result = .ok (a, rest) → ending = after rest
  incomplete : ∀ {failure : Failure}, result = .error failure →
    failure.fault.kind = .incomplete → ending = none
  error : ∀ {failure : Failure}, result = .error failure → failure.fault.kind ≠ .incomplete →
    (ending.getD []).length < failure.rest.length

namespace Delimits

variable {α β : Type} {ending : Option (List Char)} {after after' : List Char → Option (List Char)}

/-- What leaves a rest agrees with the end if the same follows after both. -/
theorem of_ok (a : α) {rest : List Char} (h : ending = after rest) :
  Delimits ending after (.ok (a, rest))
  := by
  constructor
  · rintro _ _ ⟨⟩
    apply h
  · rintro _ ⟨⟩
  · rintro _ ⟨⟩

/-- What is incomplete agrees with a text without an end. -/
theorem of_incomplete {failure : Failure} (hkind : failure.fault.kind = .incomplete)
    (h : ending = none) :
  Delimits ending after (.error failure : Result α)
  := by
  constructor
  · rintro _ _ ⟨⟩
  · rintro _ ⟨⟩ _
    apply h
  · rintro _ ⟨⟩ hne
    contradiction

/-- Any other fault agrees with an end behind its place. -/
theorem of_error {failure : Failure} (hkind : failure.fault.kind ≠ .incomplete)
    (h : (ending.getD []).length < failure.rest.length) :
  Delimits ending after (.error failure : Result α)
  := by
  constructor
  · rintro _ _ ⟨⟩
  · rintro _ ⟨⟩ _
    contradiction
  · rintro _ ⟨⟩ _
    apply h

/-- A verdict on what was read agrees with the end if a fault is at the beginning of it. -/
theorem conclude {start rest : List Char} {verdict : Except ReadFault Value}
    (hkind : ∀ fault, verdict = .error fault → fault.kind ≠ .incomplete)
    (hending : ending = after rest) (hshort : (ending.getD []).length < start.length) :
  Delimits ending after (conclude start rest verdict)
  := by
  cases verdict with
  | ok v => apply of_ok v hending
  | error fault => apply of_error (hkind fault rfl) hshort

/-- A reading that goes on agrees with the end if both its parts do. -/
theorem bind {result : Result α} {next : α × List Char → Result β}
    (h : Delimits ending after result)
    (hnext : ∀ a rest, result = .ok (a, rest) → Delimits (after rest) after' (next (a, rest))) :
  Delimits ending after' (result.bind next)
  := by
  cases result with
  | ok read =>
    rw [h.ok rfl]
    apply hnext read.1 read.2 rfl
  | error failure =>
    by_cases hkind : failure.fault.kind = .incomplete
    · apply of_incomplete hkind (h.incomplete rfl hkind)
    · apply of_error hkind (h.error rfl hkind)

end Delimits

section
variable {ends : Char → Bool}

/-- The end of a text is not before it. -/
theorem length_closeFrom_le (ends : Char → Bool) (depth : Nat) (mode : ScanMode)
    (text : List Char) :
  ((closeFrom ends depth mode text).getD []).length ≤ text.length
  := by
  cases h : closeFrom ends depth mode text with
  | none => apply Nat.zero_le
  | some rest => apply (closeFrom_suffix h).length_le

/-- The reading of a string agrees with the end of the string. -/
theorem delimits_stringFrom (start : List Char) (depth : Nat) (read text : List Char) :
  Delimits (closeFrom ends depth .string text) (closeFrom ends depth .forms)
    (stringFrom start read text)
  := by
  fun_induction stringFrom start read text with
  | case1 =>
    apply Delimits.of_incomplete rfl
    cases depth <;> rfl
  | case2 read rest =>
    apply Delimits.of_ok
    apply closeFrom_cons .string rfl
  | case3 =>
    apply Delimits.of_incomplete rfl
    cases depth <;> rfl
  | case4 read letter rest c hc ih =>
    rw [closeFrom_cons .string rfl, ScanMode.after, if_pos rfl,
      closeFrom_cons .stringEscape rfl]
    apply ih
  | case5 read letter rest hletter =>
    apply Delimits.of_error
    · rintro ⟨⟩
    rw [closeFrom_cons .string rfl, ScanMode.after, if_pos rfl,
      closeFrom_cons .stringEscape rfl]
    apply Nat.lt_succ_of_le
    apply (length_closeFrom_le ends depth .string rest).trans (Nat.le_succ _)
  | case6 read c rest hquote hlast hescape ih =>
    have hbackslash := ne_backslash hlast hescape
    rw [closeFrom_cons .string rfl, ScanMode.after, if_neg hbackslash, if_neg hquote]
    apply ih

end

/-- Separators open nothing and close nothing. -/
theorem isDelimiter_of_isSeparator {c : Char} (h : isSeparator c) :
  isDelimiter c = false
  := by
  rcases delimiter_cases c with hother | rfl | rfl | rfl | ⟨collection, rfl⟩ | ⟨collection, rfl⟩
  · apply hother
  · cases h
  · cases h
  · cases h
  · cases collection <;> cases h
  · cases collection <;> cases h

/-- What the reader skips makes no difference to where collections end. -/
theorem closeFrom_skipAtmosphereFrom (depth : Nat) (inComment : Bool) (text : List Char) :
  closeFrom endsLine (depth + 1) (if inComment then .comment else .forms) text
    = closeFrom endsLine (depth + 1) .forms (skipAtmosphereFrom inComment text)
  := by
  fun_induction skipAtmosphereFrom inComment text with
  | case1 inComment => cases inComment <;> rfl
  | case2 c text ih =>
    rw [← not_endsLine] at ih ⊢
    rw [← ih, if_pos rfl, closeFrom_cons .comment rfl, ScanMode.after]
    cases endsLine c <;> rfl
  | case3 c text hc ih =>
    rw [← ih]
    apply closeFrom_other (isDelimiter_of_isSeparator hc)
  | case4 text hc ih => apply ih
  | case5 => rfl

/-- It makes no difference to the end of collections whether separators and comments are skipped. -/
theorem closeFrom_skipAtmosphere (depth : Nat) (text : List Char) :
  closeFrom endsLine (depth + 1) .forms text
    = closeFrom endsLine (depth + 1) .forms (skipAtmosphere text)
  := closeFrom_skipAtmosphereFrom depth false text

/-- What is read ends where its delimiters say, whatever is around it. -/
theorem closedUnderReading_delimits (limit : Nat) :
  ClosedUnderReading limit
    (fun _ text result => ∀ depth,
      Delimits (endOf endsLine depth text) (closeFrom endsLine depth .forms) result)
    (fun _ _ _ _ text result => ∀ depth,
      Delimits (closeFrom endsLine (depth + 1) .forms text) (closeFrom endsLine depth .forms)
        result)
  where
  empty _ := by
    intro depth
    apply Delimits.of_incomplete rfl rfl
  token {c} hc _ text := by
    intro depth
    rw [endOf_token hc]
    apply Delimits.conclude (fun _ => kind_of_tokenVerdict) rfl
    apply Nat.lt_of_le_of_lt (length_closeFrom_le ..)
    rw [splitToken_cons hc]
    apply Nat.lt_succ_of_le (splitToken_suffix text).length_le
  string _ text := by
    intro depth
    apply delimits_stringFrom
  character _ text := by
    intro depth
    cases text with
    | nil => apply Delimits.of_incomplete rfl rfl
    | cons first text =>
      rw [endOf_backslash, charAfter_cons]
      apply Delimits.conclude (fun _ => kind_of_charVerdict) rfl
      apply Nat.lt_of_le_of_lt (length_closeFrom_le ..)
      apply Nat.lt_succ_of_le
      apply (splitToken_suffix text).length_le.trans (Nat.le_succ _)
  stray _ collection text := by
    intro depth
    apply Delimits.of_error
    · rintro ⟨⟩
    · rw [endOf_closing]
      apply Nat.lt_succ_of_le (length_closeFrom_le ..)
  tooDeep _ collection text := by
    intro depth
    apply Delimits.of_error
    · rintro ⟨⟩
    · rw [endOf_opening]
      apply Nat.lt_succ_of_le (length_closeFrom_le ..)
  collection {_} _ {collection text items} hitems := by
    intro depth
    rw [endOf_opening]
    apply (hitems depth).bind
    intro read rest hread
    apply Delimits.conclude (fun _ => kind_of_value) rfl
    rw [← (hitems depth).ok hread]
    apply Nat.lt_succ_of_le (length_closeFrom_le ..)
  unclosed _ collection start before {text} h := by
    intro depth
    apply Delimits.of_incomplete rfl
    rw [closeFrom_skipAtmosphere, h]
    rfl
  closed _ collection start before {text rest} h := by
    intro depth
    apply Delimits.of_ok
    rw [closeFrom_skipAtmosphere, h, closeFrom_closing]
  item {_ collection start before text rest c} h hc {form} hform _ {next} hnext := by
    intro depth
    have hstart : StartsForm (c :: rest) := h ▸ startsForm_skipAtmosphere text
    rw [closeFrom_skipAtmosphere, h, ← endOf_succ hstart]
    apply (hform (depth + 1)).bind
    intro v rest' hv
    apply hnext v rest' hv

/-- The reading of a form agrees with the end of its extent, where comments end as they do for
the reader. -/
theorem delimits_form (limit : Nat) {text : List Char} (hstart : StartsForm text) :
  Delimits (endOf endsLine 0 text) some (form limit text)
  := by
  have h := (closedUnderReading_delimits limit).form hstart 0
  rw [show closeFrom endsLine 0 .forms = some from funext closeFrom_zero] at h
  apply h

/-! ### Comments -/

/-- Whether every carriage return behind a semicolon in a line stands before a line feed. -/
def PlainLineEnds (text : List Char) : Prop :=
  ∀ body c, ';' :: body ++ ['\r', c] <:+: text → '\n' ∉ body → c = '\n'

/-- What holds of the carriage returns in a text holds of those in its parts. -/
theorem PlainLineEnds.part {text part : List Char} (h : PlainLineEnds text)
    (hpart : part <:+: text) :
  PlainLineEnds part
  := by
  intro body c hbody hlines
  apply h body c (hbody.trans hpart) hlines

/-- What `PlainLineEnds` asks of the rest of a text at which a scan has come. -/
def ScanMode.Plain : ScanMode → List Char → Prop
  | comment, text => ∃ body, '\n' ∉ body ∧ PlainLineEnds (';' :: body ++ text)
  | _, text => PlainLineEnds text

/-- It makes no difference whether a carriage return ends a comment if a line feed follows.  The
second part is about the text between the two. -/
theorem closeFrom_isLineFeed (text : List Char) :
  (∀ {depth : Nat} (mode : ScanMode), mode.Plain text →
      closeFrom endsLine (depth + 1) mode text = closeFrom isLineFeed (depth + 1) mode text) ∧
    ∀ {depth : Nat}, (∀ c ∈ text.head?, c = '\n') → PlainLineEnds text →
      closeFrom endsLine (depth + 1) .forms text = closeFrom isLineFeed (depth + 1) .comment text
  := by
  induction text with
  | nil =>
    constructor
    · intro depth mode _
      cases mode <;> rfl
    · intro depth _ _
      rfl
  | cons c text ih =>
    obtain ⟨ihSame, ihBetween⟩ := ih
    have htail : text <:+: c :: text := (List.suffix_cons c text).isInfix
    constructor
    · intro depth mode hplain
      cases mode with
      | forms =>
        rcases delimiter_cases c with
          hother | rfl | rfl | rfl | ⟨collection, rfl⟩ | ⟨collection, rfl⟩
        · rw [closeFrom_other hother, closeFrom_other hother]
          apply ihSame .forms (hplain.part htail)
        · apply ihSame .comment ⟨[], List.not_mem_nil, hplain⟩
        · apply ihSame .string (hplain.part htail)
        · apply ihSame .character (hplain.part htail)
        · rw [closeFrom_closing, closeFrom_closing]
          cases depth with
          | zero => rw [closeFrom_zero, closeFrom_zero]
          | succ depth => apply ihSame .forms (hplain.part htail)
        · rw [closeFrom_opening, closeFrom_opening]
          apply ihSame .forms (hplain.part htail)
      | string =>
        rw [closeFrom_cons .string rfl, closeFrom_cons .string rfl]
        apply ihSame (ScanMode.string.after endsLine c)
        rw [ScanMode.after]
        split
        · apply hplain.part htail
        · split <;> apply hplain.part htail
      | stringEscape => apply ihSame .string (hplain.part htail)
      | character => apply ihSame .forms (hplain.part htail)
      | comment =>
        obtain ⟨body, hbody, hplain⟩ := hplain
        have htail : text <:+: ';' :: body ++ c :: text := ⟨';' :: (body ++ [c]), [], by simp⟩
        rw [closeFrom_cons .comment rfl, closeFrom_cons .comment rfl, ScanMode.after,
          ScanMode.after]
        by_cases hfeed : c = '\n'
        · rw [hfeed]
          apply ihSame .forms (hplain.part htail)
        · by_cases hreturn : c = '\r'
          · rw [hreturn] at hplain ⊢
            apply ihBetween _ (hplain.part ⟨';' :: (body ++ ['\r']), [], by simp⟩)
            intro d hd
            obtain ⟨text, rfl⟩ : ∃ more, text = d :: more := by
              simpa using List.head?_eq_some_iff.mp hd
            apply hplain body d ⟨[], text, by simp⟩ hbody
          · have hends : endsLine c = false := by simp [endsLine, hfeed, hreturn]
            have hends' : isLineFeed c = false := by simp [isLineFeed, hfeed]
            rw [hends, hends']
            refine ihSame .comment ⟨body ++ [c], ?_, ?_⟩
            · rw [List.mem_append, List.mem_singleton, not_or]
              exact ⟨hbody, Ne.symm hfeed⟩
            · rw [List.cons_append, List.append_assoc]
              apply hplain
    · intro depth hhead hplain
      obtain rfl := hhead c rfl
      apply ihSame .forms (hplain.part htail)

/-- It makes no difference to enclosed forms whether a carriage return ends a comment if a line feed
follows it. -/
theorem enclosed_isLineFeed {form : List Char} (h : PlainLineEnds form) :
  Enclosed endsLine form ↔ Enclosed isLineFeed form
  := by
  have hcloses (collection : Collection) {text : List Char}
      (h : PlainLineEnds (collection.opening :: text)) :
      Closes endsLine 1 text ↔ Closes isLineFeed 1 text := by
    rw [closes_iff, closes_iff, (closeFrom_isLineFeed text).1 .forms]
    apply h.part (List.suffix_cons _ _).isInfix
  constructor
  · rintro (⟨collection, hclosed⟩ | hstring | collection)
    · apply Enclosed.collection collection ((hcloses collection h).mp hclosed)
    · apply Enclosed.string hstring
    · apply Enclosed.stray
  · rintro (⟨collection, hclosed⟩ | hstring | collection)
    · apply Enclosed.collection collection ((hcloses collection h).mpr hclosed)
    · apply Enclosed.string hstring
    · apply Enclosed.stray

/-- Nor does it to how far a form goes. -/
theorem Extent.isLineFeed {form rest : List Char} (h : Extent endsLine form rest)
    (hplain : PlainLineEnds form) :
  Extent isLineFeed form rest
  := by
  cases h with
  | enclosed h => apply Extent.enclosed ((enclosed_isLineFeed hplain).mp h)
  | bare h hrest => apply Extent.bare h hrest
  | endless hc h =>
    apply Extent.endless hc
    intro front hfront henclosed
    apply h front hfront
    apply (enclosed_isLineFeed (hplain.part hfront.isInfix)).mpr henclosed

end Read

namespace Reader

open Read

/-! ### Readers -/

variable {reader reader' : Reader}

/-- A reader with no form before it gives none, and is at the end. -/
theorem next_of_end (h : skipAtmosphere reader.rest = []) :
  reader.next = (.ok none, { reader with rest := [] })
  := by
  rw [next, h]

/-- A reader with a form before it gives the form, and is behind it. -/
theorem next_of_form {v : Value} {rest : List Char}
    (h : form reader.limit (skipAtmosphere reader.rest) = .ok (v, rest)) :
  reader.next = (.ok (some v), { reader with rest := rest })
  := by
  rw [next]
  split
  next hskip =>
    rw [hskip] at h
    cases h
  next => rw [h]

/-- A reader with a failure before it gives the error. It is at the end if the form is incomplete, and
otherwise behind the form as it is skipped. -/
theorem next_of_failure (hne : skipAtmosphere reader.rest ≠ []) {failure : Failure}
    (h : form reader.limit (skipAtmosphere reader.rest) = .error failure) :
  reader.next
    = (.error (locate reader.source failure),
        ⟨reader.source,
          if failure.fault.kind = .incomplete then [] else skipForm (skipAtmosphere reader.rest),
          reader.limit⟩)
  := by
  rw [next]
  split
  next hskip => contradiction
  next => rw [h]

/-- What a reader gives is a form that is read behind separators and comments. -/
theorem exists_form {v : Value} (h : reader.next = (.ok (some v), reader')) :
  ∃ rest, form reader.limit (skipAtmosphere reader.rest) = .ok (v, rest)
  := by
  cases hform : form reader.limit (skipAtmosphere reader.rest) with
  | ok read =>
    rw [next_of_form hform] at h
    cases h
    exact ⟨read.2, rfl⟩
  | error failure =>
    by_cases hskip : skipAtmosphere reader.rest = []
    · rw [next_of_end hskip] at h
      cases h
    · rw [next_of_failure hskip hform] at h
      cases h

/-- An error comes from a form that fails. -/
theorem exists_failure {e : ReadError} (h : reader.next = (.error e, reader')) :
  skipAtmosphere reader.rest ≠ [] ∧
    ∃ failure, form reader.limit (skipAtmosphere reader.rest) = .error failure
  := by
  cases hform : form reader.limit (skipAtmosphere reader.rest) with
  | ok read =>
    rw [next_of_form hform] at h
    cases h
  | error failure =>
    refine ⟨?_, failure, rfl⟩
    intro hskip
    rw [next_of_end hskip] at h
    cases h

/-- A call of `next` finds nothing but separators and comments and passes them, or else it takes at
least one character of a form. -/
theorem next_cases (reader : Reader) :
  reader.next = (.ok none, { reader with rest := [] }) ∨
    reader.next.1 ≠ .ok none ∧
      ∃ c text, c :: text <:+ reader.rest ∧ reader.next.2.rest <:+ text
  := by
  have hskip := skipAtmosphere_suffix reader.rest
  have hstart := startsForm_skipAtmosphere reader.rest
  cases htext : skipAtmosphere reader.rest with
  | nil => exact .inl (next_of_end htext)
  | cons c text =>
    rw [htext] at hskip hstart
    right
    cases hform : form reader.limit (c :: text) with
    | ok read =>
      rw [next_of_form (htext ▸ hform)]
      exact ⟨nofun, c, text, hskip, form_suffix hstart hform⟩
    | error failure =>
      rw [next_of_failure (htext ▸ List.cons_ne_nil c text) (htext ▸ hform), htext]
      refine ⟨nofun, c, text, hskip, ?_⟩
      dsimp only
      split
      · apply List.nil_suffix
      · apply skipForm_suffix hstart

/-- A reader after a number of calls of `next`. -/
def after : Nat → Reader → Reader
  | 0, reader => reader
  | n + 1, reader => after n reader.next.2

/-- A call of `next` leaves the source. -/
theorem next_source (reader : Reader) :
  reader.next.2.source = reader.source
  := by
  rw [next]
  split
  · rfl
  · split <;> rfl

/-- So do any number of calls. -/
theorem after_source (n : Nat) (reader : Reader) :
  (reader.after n).source = reader.source
  := by
  induction n generalizing reader with
  | zero => rfl
  | succ n ih => rw [after, ih, next_source]

/-- One more call may as well be the last of them. -/
theorem after_succ (n : Nat) (reader : Reader) :
  reader.after (n + 1) = (reader.after n).next.2
  := by
  induction n generalizing reader with
  | zero => rfl
  | succ n ih => rw [after, ih, after]

/-- What is left after a call is a part of the end of what was left before. -/
theorem next_rest_suffix (reader : Reader) :
  reader.next.2.rest <:+ reader.rest
  := by
  rcases next_cases reader with h | ⟨-, c, text, hskip, hrest⟩
  · rw [h]
    apply List.nil_suffix
  · apply (hrest.trans (List.suffix_cons c text)).trans hskip

/-- However often a reader is called, a part of the end of its source is left.  At the beginning it
is the whole source. -/
theorem rest_suffix_after (h : reader.rest <:+ reader.source) (n : Nat) :
  (reader.after n).rest <:+ reader.source
  := by
  induction n with
  | zero => apply h
  | succ n ih =>
    rw [after_succ]
    apply (next_rest_suffix _).trans ih

/-- A failure is located at its place in the source. -/
theorem location_locate (passed : List Char) (failure : Failure) :
  (locate (passed ++ failure.rest) failure).location = some (.atEnd passed)
  := by
  rw [locate, ReadError.located, Text.utf8Length_append, Nat.add_sub_cancel,
    Text.Location.ofOffset_append]

/-- After an error other than that the text is incomplete, reading goes on where the form ends that
failed if comments end at line feeds only.  For the reader they may end at carriage returns too; if
in the form these stand before line feeds only, reading goes on where the form ends for the reader,
and the place of the error is in the form, before that end. -/
theorem next_resumes {e : ReadError} (hsource : reader.rest <:+ reader.source)
    (hnext : reader.next = (.error e, reader')) (hkind : e.kind ≠ .incomplete) :
  (∃ form, skipAtmosphere reader.rest = form ++ reader'.rest ∧
      Extent isLineFeed form reader'.rest) ∧
    (∃ before form rest, reader.source = before ++ (form ++ rest) ∧
      skipAtmosphere reader.rest = form ++ rest ∧ Extent endsLine form rest) ∧
    ∀ before form rest, reader.source = before ++ (form ++ rest) →
      skipAtmosphere reader.rest = form ++ rest → Extent endsLine form rest →
      PlainLineEnds form →
      reader'.rest = rest ∧ reader'.offset = Text.utf8Length (before ++ form) ∧
        ∃ passed left, reader.source = passed ++ left ∧ e.location = some (.atEnd passed) ∧
          before <+: passed ∧ Text.utf8Length passed < reader'.offset
  := by
  obtain ⟨hne, failure, hform⟩ := exists_failure hnext
  rw [next_of_failure hne hform] at hnext
  cases hnext
  have hkind : failure.fault.kind ≠ .incomplete := hkind
  have hstart := startsForm_skipAtmosphere reader.rest
  have hbackslash : skipAtmosphere reader.rest ≠ ['\\'] := by
    intro heq
    rw [heq] at hform
    cases hform
    exact hkind rfl
  rw [if_neg hkind, skipForm_eq hstart]
  refine ⟨?_, ?_, ?_⟩
  · obtain ⟨form, rest, hskip, hextent⟩ := exists_extent isLineFeed hstart hne hbackslash
    rw [hskip, hextent.endOf]
    exact ⟨form, rfl, hextent⟩
  · obtain ⟨form, rest, hskip, hextent⟩ := exists_extent endsLine hstart hne hbackslash
    obtain ⟨before, hbefore⟩ := (skipAtmosphere_suffix reader.rest).trans hsource
    rw [← hbefore, hskip]
    exact ⟨before, form, rest, rfl, rfl, hextent⟩
  · intro before form rest hsource hskip hextent hplain
    have hlength := (delimits_form reader.limit hstart).error hform hkind
    have hplace := failure_suffix hstart hform
    rw [hskip, hextent.endOf] at hlength
    rw [hskip] at hplace ⊢
    obtain ⟨inside, hinside⟩ := hplace
    have hoffset : Reader.offset ⟨reader.source, rest, reader.limit⟩
        = Text.utf8Length (before ++ form) := by
      rw [offset, hsource, ← List.append_assoc, Text.utf8Length_append, Nat.add_sub_cancel]
    rw [(hextent.isLineFeed hplain).endOf, hoffset]
    refine ⟨rfl, rfl, before ++ inside, failure.rest, ?_, ?_, List.prefix_append _ _, ?_⟩
    · rw [hsource, List.append_assoc, hinside]
    · rw [hsource, ← hinside, ← List.append_assoc]
      apply location_locate
    · rw [Text.utf8Length_append, Text.utf8Length_append]
      apply Nat.add_lt_add_left (Text.utf8Length_lt hinside hlength)

/-- A list with a comment, closed by a delimiter of another kind. -/
theorem next_resumes_comment :
  ∃ e reader', (ofSource "(;)\n @]) b" nestingLimit).next = (.error e, reader') ∧
    e.kind ≠ .incomplete ∧ reader'.rest = ") b".toList ∧ reader'.offset = 7
  := by
  have hfails : (match (ofSource "(;)\n @]) b" nestingLimit).next.1 with
      | .error e => e.kind != .incomplete
      | .ok _ => false) = true := by
    decide +kernel
  have hsource : "(;)\n @]) b".toList = [] ++ ("(;)\n @]".toList ++ ") b".toList) := by
    decide +kernel
  have hextent : Extent endsLine "(;)\n @]".toList ") b".toList := by
    apply Extent.enclosed
    apply Enclosed.collection .list
    rw [closes_iff]
    decide +kernel
  have hplain : PlainLineEnds "(;)\n @]".toList := by
    have hreturn : '\r' ∉ "(;)\n @]".toList := by
      decide +kernel
    intro body c hbody
    cases hreturn (hbody.subset (by simp))
  cases hnext : (ofSource "(;)\n @]) b" nestingLimit).next with
  | mk result reader' =>
    rw [hnext] at hfails
    cases result with
    | ok v => cases hfails
    | error e =>
      have hkind : e.kind ≠ .incomplete := bne_iff_ne.mp hfails
      obtain ⟨hrest, hoffset, -⟩ := (next_resumes List.suffix_rfl hnext hkind).2.2 [] _ _ hsource
        hsource hextent hplain
      exact ⟨e, reader', rfl, hkind, hrest, hoffset⟩

/-- A carriage return ends the comment of a list, and a list is in the next line of that comment:
reading goes on after the inner list, at the place of the error and before the end of the form. -/
theorem next_resumes_early :
  ∃ e reader', (ofSource "(;\r(\n)@)" nestingLimit).next = (.error e, reader') ∧
    e.kind ≠ .incomplete ∧ Extent endsLine "(;\r(\n)@)".toList [] ∧
    reader'.offset < Text.utf8Length "(;\r(\n)@)".toList ∧
    e.location = some (.ofOffset "(;\r(\n)@)".toList reader'.offset)
  := by
  have hfails : (match (ofSource "(;\r(\n)@)" nestingLimit).next with
      | (.error e, reader') =>
        e.kind != .incomplete && decide (reader'.offset < Text.utf8Length "(;\r(\n)@)".toList) &&
          e.location == some (.ofOffset "(;\r(\n)@)".toList reader'.offset)
      | (.ok _, _) => false) = true := by
    decide +kernel
  have hextent : Extent endsLine "(;\r(\n)@)".toList [] := by
    apply Extent.enclosed
    apply Enclosed.collection .list
    rw [closes_iff]
    decide +kernel
  cases hnext : (ofSource "(;\r(\n)@)" nestingLimit).next with
  | mk result reader' =>
    rw [hnext] at hfails
    cases result with
    | ok v => cases hfails
    | error e =>
      simp only [Bool.and_eq_true, bne_iff_ne, decide_eq_true_eq, beq_iff_eq] at hfails
      obtain ⟨⟨hkind, hoffset⟩, hlocation⟩ := hfails
      exact ⟨e, reader', rfl, hkind, hextent, hoffset, hlocation⟩

end Reader

end PocketLisp
