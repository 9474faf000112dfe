import PocketLisp.Proofs.Read.Recovery
import PocketLisp.Proofs.Read.Stability

/-!
# Reading a source in parts

`ReadsAll` says what forms a text is read as, one after the other, until only separators and
comments are left.  When a text is read without errors and its first part is a row of whole
lines, there are two possibilities: each part is read by itself, or the first part ends within a
form, and then nothing else is wrong with it.
-/

namespace PocketLisp

namespace Read

/-- A text is read as forms and nothing else. -/
inductive ReadsAll (limit : Nat) : List Char → List Value → Prop
  | done {text : List Char} (h : skipAtmosphere text = []) : ReadsAll limit text []
  | form {text rest : List Char} {v : Value} {forms : List Value}
      (h : form limit (skipAtmosphere text) = .ok (v, rest)) (hrest : ReadsAll limit rest forms) :
    ReadsAll limit text (v :: forms)

/-- A text is read as forms up to one that is incomplete. -/
inductive Unfinished (limit : Nat) : List Char → Prop
  | incomplete {text : List Char} (hne : skipAtmosphere text ≠ []) {failure : Failure}
      (h : form limit (skipAtmosphere text) = .error failure)
      (hkind : failure.fault.kind = .incomplete) :
    Unfinished limit text
  | form {text rest : List Char} {v : Value}
      (h : form limit (skipAtmosphere text) = .ok (v, rest)) (hrest : Unfinished limit rest) :
    Unfinished limit text

section
variable {limit : Nat} {text text' : List Char} {forms : List Value}

/-- Separators and comments at the beginning do not matter to what forms a text is read as. -/
theorem ReadsAll.of_skipAtmosphere (h : ReadsAll limit text forms)
    (hskip : skipAtmosphere text' = skipAtmosphere text) :
  ReadsAll limit text' forms
  := by
  cases h with
  | done h => apply ReadsAll.done (hskip.trans h)
  | form h hrest => apply ReadsAll.form (hskip ▸ h) hrest

/-- Where only separators and comments are left there is no form. -/
theorem ReadsAll.eq_nil (h : ReadsAll limit text forms) (hskip : skipAtmosphere text = []) :
  forms = []
  := by
  cases h with
  | done => rfl
  | form h =>
    rw [hskip] at h
    cases h

/-- A text that is read to its end has no incomplete form. -/
theorem ReadsAll.not_unfinished (h : ReadsAll limit text forms) :
  ¬ Unfinished limit text
  := by
  induction h with
  | done hskip =>
    rintro (⟨hne⟩ | h)
    · contradiction
    · rw [hskip] at h
      cases h
  | form hform _ ih =>
    rintro (⟨_, h⟩ | ⟨h, hrest⟩)
    · rw [hform] at h
      cases h
    · rw [hform] at h
      cases h
      apply ih hrest

end

/-! ### Whole lines -/

/-- Whether a text is a row of lines, each with its line feed. -/
def WholeLines (text : List Char) : Prop :=
  ∀ c ∈ text.getLast?, c = '\n'

/-- No lines at all are whole lines. -/
theorem wholeLines_nil :
  WholeLines []
  := by
  intro c hc
  cases hc

/-- Whole lines end in whole lines. -/
theorem WholeLines.suffix {text rest : List Char} (h : WholeLines text) (hrest : rest <:+ text) :
  WholeLines rest
  := by
  obtain ⟨front, rfl⟩ := hrest
  intro c hc
  apply h c
  rw [List.getLast?_append, Option.mem_def.mp hc]
  rfl

/-- The last token of whole lines ends with them. -/
theorem WholeLines.detached {text : List Char} (h : WholeLines text) (hne : text ≠ [])
    (more : List Char) :
  Detached text more
  := by
  right
  have hlast := List.getLast?_eq_some_getLast hne
  refine ⟨_, hlast, ?_⟩
  rw [h _ hlast]
  rfl

/-- No comment goes on over the end of whole lines. -/
theorem skipAtmosphereFrom_append {inComment : Bool} {text : List Char}
    (hskip : skipAtmosphereFrom inComment text = []) (hlines : WholeLines text)
    (hstart : text = [] → inComment = false) (more : List Char) :
  skipAtmosphereFrom inComment (text ++ more) = skipAtmosphere more
  := by
  fun_induction skipAtmosphereFrom inComment text with
  | case1 inComment =>
    rw [hstart rfl]
    rfl
  | case2 c text ih =>
    rw [List.cons_append, skipAtmosphereFrom]
    apply ih hskip (hlines.suffix (List.suffix_cons c text))
    rintro rfl
    rw [hlines c rfl]
    rfl
  | case3 c text hc ih =>
    rw [List.cons_append, skipAtmosphereFrom, if_pos hc]
    apply ih hskip (hlines.suffix (List.suffix_cons c text)) fun _ => rfl
  | case4 text hc ih =>
    rw [List.cons_append, skipAtmosphereFrom, if_neg hc, if_pos rfl]
    apply ih hskip (hlines.suffix (List.suffix_cons _ text))
    rintro rfl
    cases hlines ';' rfl
  | case5 => cases hskip

/-- Where whole lines consist of separators and comments only, these end with the lines. -/
theorem WholeLines.skipAtmosphere_append {text : List Char} (h : WholeLines text)
    (hskip : skipAtmosphere text = []) (more : List Char) :
  skipAtmosphere (text ++ more) = skipAtmosphere more
  := skipAtmosphereFrom_append hskip h (fun _ => rfl) more

/-- A text that begins with whole lines and is read without errors is read in two parts, unless the
lines end within a form. -/
theorem ReadsAll.split {limit : Nat} {lines more : List Char} {forms : List Value}
    (h : ReadsAll limit (lines ++ more) forms) (hlines : WholeLines lines) :
  (∃ first second, forms = first ++ second ∧ ReadsAll limit lines first ∧
      ReadsAll limit more second) ∨
    Unfinished limit lines
  := by
  generalize htext : lines ++ more = text at h
  induction h generalizing lines with
  | @done text hdone =>
    subst htext
    cases hskip : skipAtmosphere lines with
    | nil =>
      rw [hlines.skipAtmosphere_append hskip] at hdone
      exact .inl ⟨[], [], rfl, .done hskip, .done hdone⟩
    | cons c rest =>
      rw [skipAtmosphere, skipAtmosphereFrom_more hskip] at hdone
      cases hdone
  | @form text rest v forms hform hrest ih =>
    subst htext
    cases hskip : skipAtmosphere lines with
    | nil =>
      rw [hlines.skipAtmosphere_append hskip] at hform
      exact .inl ⟨[], v :: forms, rfl, .done hskip, .form hform hrest⟩
    | cons c tail =>
      have hsuffix : c :: tail <:+ lines := hskip ▸ skipAtmosphere_suffix lines
      have hstart : StartsForm (c :: tail) := hskip ▸ startsForm_skipAtmosphere lines
      have hdetached : Detached (c :: tail) more :=
        (hlines.suffix hsuffix).detached (List.cons_ne_nil c tail) more
      rw [show skipAtmosphere (lines ++ more) = c :: tail ++ more from
        skipAtmosphereFrom_more hskip more] at hform
      -- a form that was cut short would be wrong in the whole text
      have hextends : Extends more (Read.form limit (c :: tail))
          (Read.form limit (c :: tail ++ more)) := by
        apply (form_extends limit hstart hdetached).resolve_right
        rintro ⟨-, -, failure, hfailure⟩
        cases hform.symm.trans hfailure
      cases hpart : Read.form limit (c :: tail) with
      | error failure =>
        right
        apply Unfinished.incomplete (hskip ▸ List.cons_ne_nil c tail) (hskip ▸ hpart)
        by_contra hkind
        cases hform.symm.trans (hextends.error hpart hkind)
      | ok read =>
        obtain ⟨v', rest'⟩ := read
        cases hform.symm.trans (hextends.ok hpart)
        have hleft : rest' <:+ lines :=
          ((form_suffix hstart hpart).trans (List.suffix_cons c tail)).trans hsuffix
        rcases ih (hlines.suffix hleft) rfl with ⟨first, second, rfl, hfirst, hsecond⟩ | hunfinished
        · exact .inl ⟨v :: first, second, rfl, .form (hskip ▸ hpart) hfirst, hsecond⟩
        · exact .inr (.form (hskip ▸ hpart) hunfinished)

end Read

namespace Reader

open Read

/-! ### Results -/

section
variable {limit : Nat} {text : List Char} {forms : List Value} (source : List Char) {fuel : Nat}

/-- Reading a form leaves less than there was. -/
theorem length_rest_lt {rest : List Char} {v : Value}
    (h : form limit (skipAtmosphere text) = .ok (v, rest)) :
  rest.length < text.length
  := by
  have hlength := (skipAtmosphere_suffix text).length_le
  have hstart := startsForm_skipAtmosphere text
  cases hskip : skipAtmosphere text with
  | nil =>
    rw [hskip] at h
    cases h
  | cons c tail =>
    rw [hskip] at h hlength hstart
    have hrest := (form_suffix hstart h).length_le
    rw [List.length_cons] at hlength
    omega

/-- The first outcome is the form at the beginning. -/
theorem outcomes_of_form {rest : List Char} {v : Value}
    (h : form limit (skipAtmosphere text) = .ok (v, rest)) (fuel : Nat) :
  outcomes (fuel + 1) ⟨source, text, limit⟩
    = (.ok v, ⟨source, rest, limit⟩) :: outcomes fuel ⟨source, rest, limit⟩
  := by
  have hnext : next ⟨source, text, limit⟩ = (.ok (some v), ⟨source, rest, limit⟩) := next_of_form h
  rw [outcomes, hnext]

/-- There are no outcomes without a form. -/
theorem outcomes_of_end (h : skipAtmosphere text = []) (fuel : Nat) :
  outcomes fuel ⟨source, text, limit⟩ = []
  := by
  cases fuel with
  | zero => rfl
  | succ fuel =>
    have hnext : next ⟨source, text, limit⟩ = (.ok none, ⟨source, [], limit⟩) := next_of_end h
    rw [outcomes, hnext]

/-- The first outcome is the error if the form at the beginning fails. -/
theorem outcomes_of_failure (hne : skipAtmosphere text ≠ []) {failure : Failure}
    (h : form limit (skipAtmosphere text) = .error failure) (fuel : Nat) :
  ∃ results, (outcomes (fuel + 1) ⟨source, text, limit⟩).map Prod.fst
    = .error (locate source failure) :: results
  := by
  have hnext : (next ⟨source, text, limit⟩).1 = .error (locate source failure) :=
    congrArg Prod.fst (next_of_failure hne h)
  rw [outcomes]
  split
  next heq =>
    rw [heq] at hnext
    cases hnext
  next heq =>
    rw [heq] at hnext
    cases hnext
  next heq =>
    rw [heq] at hnext
    cases hnext
    exact ⟨_, List.map_cons⟩

/-- With fuel enough for the text its forms come out. -/
theorem outcomes_of_readsAll (h : ReadsAll limit text forms) (hfuel : text.length ≤ fuel) :
  (outcomes fuel ⟨source, text, limit⟩).map Prod.fst = forms.map Except.ok
  := by
  induction h generalizing fuel with
  | done hskip => rw [outcomes_of_end source hskip, List.map_nil, List.map_nil]
  | form h _ ih =>
    have hlength := length_rest_lt h
    obtain ⟨fuel, rfl⟩ := Nat.exists_eq_succ_of_ne_zero (Nat.ne_zero_of_lt (hlength.trans_le hfuel))
    rw [outcomes_of_form source h, List.map_cons, List.map_cons, ih (by omega)]

/-- A text of which all outcomes are forms is read as these. -/
theorem readsAll_of_outcomes (hfuel : text.length ≤ fuel)
    (h : (outcomes fuel ⟨source, text, limit⟩).map Prod.fst = forms.map Except.ok) :
  ReadsAll limit text forms
  := by
  induction fuel generalizing text forms with
  | zero =>
    obtain rfl := List.eq_nil_of_length_eq_zero (Nat.eq_zero_of_le_zero hfuel)
    cases forms with
    | nil => apply ReadsAll.done rfl
    | cons v forms => cases h
  | succ fuel ih =>
    by_cases hskip : skipAtmosphere text = []
    · rw [outcomes_of_end source hskip] at h
      cases forms with
      | nil => apply ReadsAll.done hskip
      | cons v forms => cases h
    · cases hform : form limit (skipAtmosphere text) with
      | ok read =>
        obtain ⟨v, rest⟩ := read
        rw [outcomes_of_form source hform, List.map_cons] at h
        cases forms with
        | nil => cases h
        | cons v' forms =>
          obtain ⟨hv, hrest⟩ := List.cons.inj h
          cases hv
          have hlength := length_rest_lt hform
          apply ReadsAll.form hform (ih (by omega) hrest)
      | error failure =>
        obtain ⟨results, hresults⟩ := outcomes_of_failure source hskip hform fuel
        rw [hresults] at h
        cases forms with
        | nil => cases h
        | cons v forms => cases (List.cons.inj h).1

/-- With fuel enough for the text it comes out that a form is incomplete. -/
theorem outcomes_of_unfinished (h : Unfinished limit text) (hfuel : text.length ≤ fuel) :
  ∃ e, .error e ∈ (outcomes fuel ⟨source, text, limit⟩).map Prod.fst ∧ e.kind = .incomplete
  := by
  induction h generalizing fuel with
  | @incomplete text hne failure h hkind =>
    have hlength : 0 < text.length := by
      rw [List.length_pos_iff]
      rintro rfl
      apply hne rfl
    obtain ⟨fuel, rfl⟩ := Nat.exists_eq_succ_of_ne_zero (Nat.ne_zero_of_lt (hlength.trans_le hfuel))
    obtain ⟨results, hresults⟩ := outcomes_of_failure source hne h fuel
    rw [hresults]
    exact ⟨_, List.mem_cons_self, hkind⟩
  | @form text rest v h _ ih =>
    have hlength := length_rest_lt h
    obtain ⟨fuel, rfl⟩ := Nat.exists_eq_succ_of_ne_zero (Nat.ne_zero_of_lt (hlength.trans_le hfuel))
    have hrest : rest.length ≤ fuel := by omega
    obtain ⟨e, he, hkind⟩ := ih hrest
    rw [outcomes_of_form source h, List.map_cons]
    exact ⟨e, List.mem_cons_of_mem _ he, hkind⟩

end

/-- A source that is read as forms has these for its results. -/
theorem results_of_readsAll {source : String} {forms : List Value}
    (h : ReadsAll nestingLimit source.toList forms) :
  results source = forms.map Except.ok
  := outcomes_of_readsAll source.toList h le_rfl

/-- Results without an error among them are the forms that were read. -/
theorem eq_map_ok_of_mapM {results : List (Except ReadError Value)} {forms : List Value}
    (h : results.mapM id = .ok forms) :
  results = forms.map Except.ok
  := by
  induction results generalizing forms with
  | nil =>
    cases h
    rfl
  | cons result results ih =>
    rw [List.mapM_cons] at h
    cases result with
    | error e => cases h
    | ok v =>
      cases htail : results.mapM id with
      | error e =>
        rw [htail] at h
        cases h
      | ok forms' =>
        rw [htail] at h
        cases h
        rw [ih htail, List.map_cons]

/-- What `readAll` returns are the forms that a source is read as. -/
theorem readsAll_of_readAll {source : String} {forms : List Value}
    (h : readAll source = .ok forms) :
  ReadsAll nestingLimit source.toList forms
  := readsAll_of_outcomes source.toList le_rfl (eq_map_ok_of_mapM h)

end Reader

end PocketLisp
