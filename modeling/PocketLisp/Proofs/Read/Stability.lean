import PocketLisp.Proofs.Read.Induction

/-!
# Reading with more text behind

What was read of a text does not change when more text comes behind it, and neither does what is
wrong with it: only a text that is incomplete may be read differently.  The last token of the text
must not go on in what comes behind it.  So what comes behind has to end a token, or the text has
to end with a character that ends one; but the second may be a character literal, a backslash
before that very character, and then a token behind it belongs to the literal, which is wrong.
-/

namespace PocketLisp.Read

variable {α β : Type} {text more : List Char}

/-! ### Texts whose last token does not go on -/

/-- Whether the last token of a text ends with the text if it has `more` behind it. -/
def Detached (text more : List Char) : Prop :=
  Follows more ∨ ∃ c ∈ text.getLast?, endsToken c

/-- The last token of a text is also that of its parts at the end. -/
theorem Detached.suffix {rest : List Char} (h : Detached text more) (hrest : rest <:+ text)
    (hne : rest ≠ []) :
  Detached rest more
  := by
  rcases h with h | ⟨c, hc, hends⟩
  · exact .inl h
  · obtain ⟨front, rfl⟩ := hrest
    rw [List.getLast?_append_of_ne_nil _ hne] at hc
    exact .inr ⟨c, hc, hends⟩

/-- A token does not change with more text behind. -/
theorem splitToken_more (h : Detached text more) :
  splitToken (text ++ more) = ((splitToken text).1, (splitToken text).2 ++ more)
  := by
  have hchars : ∀ c ∈ (splitToken text).1, endsToken c = false := by
    intro c hc
    apply endsToken_of_mem_splitToken hc
  have hfollows : Follows ((splitToken text).2 ++ more) := by
    cases hrest : (splitToken text).2 with
    | cons c rest => apply hrest ▸ follows_splitToken text
    | nil =>
      rcases h with h | ⟨c, hc, hends⟩
      · apply h
      · have htoken : (splitToken text).1 = text := by
          rw [← List.append_nil (splitToken text).1, ← hrest, splitToken_append]
        have hmem : c ∈ (splitToken text).1 := by
          rw [htoken]
          apply List.mem_of_getLast? hc
        have hc' := hchars c hmem
        rw [hends] at hc'
        cases hc'
  rw [← splitToken_eq hchars hfollows, ← List.append_assoc, splitToken_append]

/-- What does not end a token begins with a character that goes on with it. -/
theorem exists_cons_of_not_follows (h : ¬ Follows more) :
  ∃ c rest, more = c :: rest ∧ endsToken c = false
  := by
  cases more with
  | nil => cases h follows_nil
  | cons c rest =>
    use c, rest, rfl
    rw [← Bool.not_eq_true]
    intro hc
    apply h (follows_cons hc rest)

/-! ### Extended results -/

/-- A result is the same with more text behind, unless it was that the text is incomplete. -/
structure Extends (more : List Char) (result extended : Result α) : Prop where
  ok : ∀ {a : α} {rest : List Char}, result = .ok (a, rest) → extended = .ok (a, rest ++ more)
  error : ∀ {failure : Failure}, result = .error failure → failure.fault.kind ≠ .incomplete →
    extended = .error ⟨failure.fault, failure.rest ++ more⟩

namespace Extends

/-- A result is the same if what is left has more text behind it. -/
theorem of_ok (a : α) (rest : List Char) :
  Extends more (.ok (a, rest)) (.ok (a, rest ++ more))
  := by
  constructor
  · rintro _ _ ⟨⟩
    rfl
  · rintro _ ⟨⟩

/-- A fault is the same at the same place. -/
theorem of_error (fault : ReadFault) (rest : List Char) :
  Extends more (.error ⟨fault, rest⟩ : Result α) (.error ⟨fault, rest ++ more⟩)
  := by
  constructor
  · rintro _ _ ⟨⟩
  · rintro _ ⟨⟩ _
    rfl

/-- What was incomplete may be anything with more text behind. -/
theorem of_incomplete {failure : Failure} (h : failure.fault.kind = .incomplete)
    (extended : Result α) :
  Extends more (.error failure) extended
  := by
  constructor
  · rintro _ _ ⟨⟩
  · rintro _ ⟨⟩ hkind
    contradiction

/-- A verdict is the same. -/
theorem conclude (start rest : List Char) (verdict : Except ReadFault Value) :
  Extends more (conclude start rest verdict) (conclude (start ++ more) (rest ++ more) verdict)
  := by
  cases verdict with
  | ok v => apply of_ok
  | error fault => apply of_error

/-- Results stay the same if both parts of a reading do. -/
theorem bind {result extended : Result α} {next next' : α × List Char → Result β}
    (h : Extends more result extended)
    (hnext : ∀ a rest, result = .ok (a, rest) →
      Extends more (next (a, rest)) (next' (a, rest ++ more))) :
  Extends more (result.bind next) (extended.bind next')
  := by
  cases result with
  | ok read =>
    rw [h.ok rfl]
    apply hnext read.1 read.2 rfl
  | error failure =>
    by_cases hkind : failure.fault.kind = .incomplete
    · apply of_incomplete hkind
    · rw [h.error rfl hkind]
      apply of_error

/-! ### Strings, characters and skipped text -/

/-- A string ends by itself, whatever follows. -/
theorem stringFrom (start read text : List Char) :
  Extends more (stringFrom start read text) (stringFrom (start ++ more) read (text ++ more))
  := by
  fun_induction Read.stringFrom start read text with
  | case1 => apply of_incomplete rfl
  | case2 read rest => apply of_ok
  | case3 => apply of_incomplete rfl
  | case4 read letter rest c hc ih =>
    simp only [List.cons_append, Read.stringFrom, hc]
    apply ih
  | case5 read letter rest hletter =>
    simp only [List.cons_append, Read.stringFrom, hletter]
    apply of_error
  | case6 read c rest hquote hlast hescape ih =>
    rw [List.cons_append, stringFrom_cons _ hquote (ne_backslash hlast hescape)]
    apply ih

end Extends

/-- The name of a character begins with no character that ends tokens. -/
theorem namedChar?_eq_none {first : Char} (h : endsToken first) (tail : List Char) :
  namedChar? (String.ofList (first :: tail)) = none
  := by
  have hne (name : String) (hname : name.toList.head?.any endsToken = false) :
      String.ofList (first :: tail) ≠ name := by
    rintro rfl
    rw [String.toList_ofList, List.head?_cons, Option.any_some, h] at hname
    cases hname
  unfold namedChar?
  split
  next heq => cases hne _ (by decide) heq
  next heq => cases hne _ (by decide) heq
  next heq => cases hne _ (by decide) heq
  next heq => cases hne _ (by decide) heq
  next heq => cases hne _ (by decide) heq
  next heq => cases hne _ (by decide) heq
  next => rfl

/-- A character that ends tokens cannot be the first of a longer name. -/
theorem charVerdict_of_endsToken {first : Char} (h : endsToken first) (c : Char)
    (tail : List Char) :
  ∃ fault, charVerdict first (c :: tail) = .error fault
  := by
  rw [charVerdict.eq_def]
  simp only [namedChar?_eq_none h]
  cases (c :: tail).find? isReserved with
  | some _ => exact ⟨_, rfl⟩
  | none => exact ⟨_, rfl⟩

/-- A result with a form that was cut short: it ended with the text, but goes on in the text
behind, and fails. -/
structure CutShort (more : List Char) (result extended : Result Value) : Prop where
  ok : ∃ v, result = .ok (v, [])
  not_follows : ¬ Follows more
  error : ∃ failure, extended = .error failure

/-- A character literal that ends with the text, by its very first character, may go on. -/
theorem charAfter_extends (start : List Char) (h : Detached ('\\' :: text) more) :
  Extends more (charAfter start text) (charAfter (start ++ more) (text ++ more)) ∨
    CutShort more (charAfter start text) (charAfter (start ++ more) (text ++ more))
  := by
  cases text with
  | nil =>
    left
    apply Extends.of_incomplete rfl
  | cons first text =>
    rw [List.cons_append, charAfter_cons, charAfter_cons]
    by_cases hdetached : Detached text more
    · left
      rw [splitToken_more hdetached]
      apply Extends.conclude
    · right
      have hfollows : ¬ Follows more := fun hfollows => hdetached (.inl hfollows)
      obtain rfl : text = [] := by
        by_contra hne
        apply hdetached (h.suffix ⟨['\\', first], rfl⟩ hne)
      obtain ⟨_, ⟨⟩, hlast⟩ := h.resolve_left hfollows
      have hfirst : endsToken first := hlast
      obtain ⟨c, more, rfl, hc⟩ := exists_cons_of_not_follows hfollows
      refine ⟨⟨.char first, rfl⟩, hfollows, ?_⟩
      rw [List.nil_append, splitToken_cons hc]
      obtain ⟨fault, hfault⟩ := charVerdict_of_endsToken hfirst c (splitToken more).1
      rw [hfault]
      exact ⟨_, rfl⟩

/-! ### Readings with more text behind -/

/-- A form is read as it is without more text, or it was cut short. -/
def FormExtends (limit : Nat) (more : List Char) (depth : Nat) (text : List Char)
    (result : Result Value) : Prop :=
  Detached text more → ∀ {fuel : Nat}, 2 * (text ++ more).length ≤ fuel →
    Extends more result (formAt limit (fuel + 1) depth (text ++ more)) ∨
      CutShort more result (formAt limit (fuel + 1) depth (text ++ more))

/-- The items of a collection are read as they are without more text.  Where there is no text the
collection is not complete, so that no item before can have been cut short. -/
structure ItemsExtend (limit : Nat) (more : List Char) (depth : Nat) (collection : Collection)
    (start : List Char) (before : List Value) (text : List Char) (result : Result (List Value)) :
    Prop where
  incomplete : text = [] → ∃ failure, result = .error failure ∧ failure.fault.kind = .incomplete
  extended : Detached text more → ∀ {fuel : Nat}, 2 * (text ++ more).length + 1 ≤ fuel →
    Extends more result
      (itemsAt limit (fuel + 1) depth collection (start ++ more) before (text ++ more))

/-- Where separators and comments end before a form, they end there with more text behind. -/
theorem skipAtmosphereFrom_more {inComment : Bool} {c : Char} {rest : List Char}
    (h : skipAtmosphereFrom inComment text = c :: rest) (more : List Char) :
  skipAtmosphereFrom inComment (text ++ more) = c :: rest ++ more
  := by
  fun_induction skipAtmosphereFrom inComment text with
  | case1 => cases h
  | case2 c' text ih =>
    rw [List.cons_append, skipAtmosphereFrom]
    apply ih h
  | case3 c' text hc ih =>
    rw [List.cons_append, skipAtmosphereFrom, if_pos hc]
    apply ih h
  | case4 text hc ih =>
    rw [List.cons_append, skipAtmosphereFrom, if_neg hc, if_pos rfl]
    apply ih h
  | case5 c' text hseparator hsemicolon =>
    rw [List.cons_append, skipAtmosphereFrom, if_neg hseparator, if_neg hsemicolon, ← h]
    rfl

/-- To be the same with more text behind is closed under the rules of reading. -/
theorem closedUnderReading_extends (limit : Nat) (more : List Char) :
  ClosedUnderReading limit (FormExtends limit more) (ItemsExtend limit more)
  where
  empty depth := by
    intro _ fuel _
    left
    apply Extends.of_incomplete rfl
  token hc depth text := by
    intro hdetached fuel _
    left
    rw [List.cons_append, formAt_token hc, ← List.cons_append, splitToken_more hdetached]
    apply Extends.conclude
  string depth text := by
    intro _ fuel _
    left
    rw [List.cons_append, formAt_quote]
    apply Extends.stringFrom
  character depth text := by
    intro hdetached fuel _
    rw [List.cons_append, formAt_backslash]
    apply charAfter_extends _ hdetached
  stray depth collection text := by
    intro _ fuel _
    left
    rw [List.cons_append, formAt_closing]
    apply Extends.of_error
  tooDeep hdepth collection text := by
    intro _ fuel _
    left
    rw [List.cons_append, formAt_collection, if_pos hdepth]
    apply Extends.of_error
  collection {depth} hdepth {collection text items} hitems := by
    intro hdetached fuel hfuel
    rw [List.cons_append, List.length_cons] at hfuel
    obtain ⟨fuel, rfl⟩ : ∃ fuel', fuel = fuel' + 1 :=
      Nat.exists_eq_succ_of_ne_zero (by omega)
    left
    rw [List.cons_append, formAt_collection, if_neg (Nat.not_le_of_lt hdepth)]
    by_cases hne : text = []
    · obtain ⟨failure, rfl, hkind⟩ := hitems.incomplete hne
      apply Extends.of_incomplete hkind
    · have hextends : Extends more items
          (itemsAt limit (fuel + 1) (depth + 1) collection (collection.opening :: (text ++ more)) []
            (text ++ more)) := by
        apply hitems.extended (hdetached.suffix (List.suffix_cons _ _) hne)
        omega
      apply hextends.bind
      intro read rest _
      apply Extends.conclude
  unclosed depth collection start before text h := by
    constructor
    · intro _
      exact ⟨_, rfl, rfl⟩
    · intro _ fuel _
      apply Extends.of_incomplete rfl
  closed depth collection start before text rest h := by
    constructor
    · rintro rfl
      cases h
    · intro _ fuel _
      rw [itemsAt_of_closing _ _ _ _ _ _ (skipAtmosphereFrom_more h more)]
      apply Extends.of_ok
  item {depth collection start before text rest c} h hc {form} hform hleaves {next} hnext := by
    have hsuffix : c :: rest <:+ text := h ▸ skipAtmosphere_suffix text
    -- where the text ends behind the form, the collection is not complete
    have hend {v : Value} (hv : form = .ok (v, [])) (extended : Result (List Value)) :
        Extends more (form.bind next) extended := by
      obtain ⟨failure, hfailure, hkind⟩ := (hnext v [] hv).incomplete rfl
      rw [hv, Except.bind, hfailure]
      apply Extends.of_incomplete hkind
    constructor
    · rintro rfl
      cases h
    · intro hdetached fuel hfuel
      obtain ⟨fuel, rfl⟩ := Nat.exists_eq_succ_of_ne_zero (Nat.ne_zero_of_lt hfuel)
      rw [itemsAt_of_item _ _ _ _ _ _ (skipAtmosphereFrom_more h more) hc]
      have hlength := hsuffix.length_le
      simp only [List.length_append, List.length_cons] at hfuel hlength
      have hfuel' : 2 * (c :: rest ++ more).length ≤ fuel := by
        simp only [List.length_append, List.length_cons]
        omega
      have hextends := hform (hdetached.suffix hsuffix (List.cons_ne_nil c rest)) hfuel'
      rcases hextends with hextends | ⟨⟨v, hv⟩, -, -⟩
      · by_cases hcut : ∃ v, form = .ok (v, [])
        · obtain ⟨v, hv⟩ := hcut
          apply hend hv
        · apply hextends.bind
          intro v rest' hv
          have hrest' := hleaves.ok hv
          have hshorter := hrest'.length_le
          apply (hnext v rest' hv).extended
          · apply hdetached.suffix ((hrest'.trans (List.suffix_cons c rest)).trans hsuffix)
            rintro rfl
            exact hcut ⟨v, hv⟩
          · rw [List.length_append]
            omega
      · apply hend hv

/-- A form is read as it is without more text, or it was cut short. -/
theorem form_extends (limit : Nat) (hstart : StartsForm text) (hdetached : Detached text more) :
  Extends more (form limit text) (form limit (text ++ more)) ∨
    CutShort more (form limit text) (form limit (text ++ more))
  := (closedUnderReading_extends limit more).form hstart hdetached le_rfl

/-- Behind a text that ends a token no form is cut short. -/
theorem form_extends_of_follows (limit : Nat) (hstart : StartsForm text) (hmore : Follows more) :
  Extends more (form limit text) (form limit (text ++ more))
  := by
  apply (form_extends limit hstart (.inl hmore)).resolve_right
  intro hcut
  apply hcut.not_follows hmore

/-- The reader's verdict on a text is the same with more text behind, if that begins with a
character that ends tokens: a form that was read is read again and leaves what is behind it, and a
fault is found again at its place.  So when a form goes on in the text behind, the text before is
incomplete, and nothing else is wrong with it. -/
theorem form_append (limit : Nat) (hstart : StartsForm text) (hmore : Follows more) :
  (∀ v rest, form limit text = .ok (v, rest) →
      form limit (text ++ more) = .ok (v, rest ++ more)) ∧
    (∀ failure, form limit text = .error failure → failure.fault.kind ≠ .incomplete →
      form limit (text ++ more) = .error ⟨failure.fault, failure.rest ++ more⟩) ∧
    ∀ v rest, form limit (text ++ more) = .ok (v, rest) → rest.length < more.length →
      ∃ failure, form limit text = .error failure ∧ failure.fault.kind = .incomplete
  := by
  have hextends := form_extends_of_follows limit hstart hmore
  refine ⟨fun v rest => hextends.ok, fun failure => hextends.error, ?_⟩
  intro v rest hread hlength
  cases hform : form limit text with
  | ok read =>
    obtain ⟨v', rest'⟩ := read
    obtain ⟨-, rfl⟩ := Prod.mk.inj (Except.ok.inj (hread.symm.trans (hextends.ok hform)))
    rw [List.length_append] at hlength
    omega
  | error failure =>
    use failure, rfl
    by_contra hkind
    cases hread.symm.trans (hextends.error hform hkind)

/-- A list that ends in the text behind, and in it a string that looks closed before. -/
theorem form_append_openString :
  StartsForm "(a \"x".toList ∧ Follows ") y\" \\;) z".toList ∧
    ∃ failure, form nestingLimit "(a \"x".toList = .error failure ∧
      failure.fault.kind = .incomplete
  := by
  have hstart : StartsForm "(a \"x".toList := by
    rintro _ ⟨⟩
    decide
  have hmore : Follows ") y\" \\;) z".toList := by
    rintro _ ⟨⟩
    rfl
  have hread : (form nestingLimit ("(a \"x".toList ++ ") y\" \\;) z".toList)).toOption.any
      fun read => read.2.length < ") y\" \\;) z".toList.length := by
    decide +kernel
  use hstart, hmore
  cases hform : form nestingLimit ("(a \"x".toList ++ ") y\" \\;) z".toList) with
  | ok read =>
    rw [hform] at hread
    apply (form_append nestingLimit hstart hmore).2.2 read.1 read.2 hform (of_decide_eq_true hread)
  | error failure =>
    rw [hform] at hread
    cases hread

end PocketLisp.Read
