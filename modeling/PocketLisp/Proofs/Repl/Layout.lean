import Mathlib.Data.List.TakeWhile
import PocketLisp.Proofs.Eval.Refinement
import PocketLisp.Proofs.Read.Parts
import PocketLisp.Repl

/-!
# The loop and the layout of its lines

However forms are laid out on lines, the loop prints what evaluating them in their order prints.
What the loop has before a line is given by `Owes`: the pending text is empty or ends within a
form, and what it lacks is in the lines to come.  A line takes the loop from one such state to
another, and prints the part of the text that is due.

Evaluations are taken to end, each with fuel of its own; the loop needs fuel enough for all.
-/

namespace PocketLisp

namespace Session

/-! ### Forms one after the other -/

/-- Evaluating forms in their order prints a text and leaves a session: for each form what it
writes to the output, and then its result. -/
inductive Prints : Session → List Value → (text : String) → Session → Prop
  | nil (session : Session) : Prints session [] "" session
  | cons {session session' : Session} {form : Value} {forms : List Value}
      {result : Except Error Value} {store : Store} {text : String}
      (h : Eval.Ends 0 session.scope form session.store result store)
      (hrest : Prints ⟨{ store with output := "" }, session.scope⟩ forms text session') :
    Prints session (form :: forms) (store.output ++ Repl.resultText result ++ text) session'

/-- What forms print is what the first of them print, and then what the others print. -/
theorem Prints.split {session session' : Session} {first second : List Value} {text : String}
    (h : Prints session (first ++ second) text session') :
  ∃ text₁ between text₂, text = text₁ ++ text₂ ∧ Prints session first text₁ between ∧
    Prints between second text₂ session'
  := by
  induction first generalizing session text with
  | nil => exact ⟨"", session, text, (String.empty_append).symm, .nil session, h⟩
  | cons form first ih =>
    cases h with
    | cons h hrest =>
      obtain ⟨text₁, between, text₂, rfl, hfirst, hsecond⟩ := ih hrest
      exact ⟨_, between, text₂, (String.append_assoc ..).symm, .cons h hfirst, hsecond⟩

end Session

namespace Repl

open Read Reader Session

/-- With fuel enough the answers to forms are printed. -/
theorem answersText_of_prints {session session' : Session} {forms : List Value} {text : String}
    (h : Prints session forms text session') :
  ∃ bound, ∀ fuel, bound ≤ fuel →
    answersText fuel session (forms.map Except.ok) = some (text, session')
  := by
  induction h with
  | nil session => exact ⟨0, fun _ _ => rfl⟩
  | cons h _ ih =>
    obtain ⟨fuel₁, h⟩ := h
    obtain ⟨fuel₂, ih⟩ := ih
    use max fuel₁ fuel₂
    intro fuel hfuel
    have hform := Eval.outcome_expression_of_le ((Nat.le_max_left ..).trans hfuel) h
    have hforms := ih fuel ((Nat.le_max_right ..).trans hfuel)
    simp only [List.map_cons, answersText, answer, evaluate, hform, hforms, Option.map_some,
      Option.bind_eq_bind, Option.bind_some, Option.pure_def]

/-- The answers to forms are what is printed with any fuel that is enough. -/
theorem prints_of_answersText {fuel : Nat} {session session' : Session} {forms : List Value}
    {text : String} (h : answersText fuel session (forms.map Except.ok) = some (text, session')) :
  Prints session forms text session'
  := by
  induction forms generalizing session text with
  | nil =>
    cases h
    apply Prints.nil
  | cons form forms ih =>
    simp only [List.map_cons, answersText, answer, evaluate, Option.bind_eq_bind,
      Option.bind_eq_some_iff, Option.map_eq_some_iff, Option.pure_def, Option.some.injEq] at h
    obtain ⟨_, ⟨⟨result, store⟩, hform, rfl⟩, ⟨text, _⟩, hforms, heq⟩ := h
    cases heq
    apply Prints.cons ⟨fuel, hform⟩ (ih hforms)

/-! ### Lines -/

/-- The loop waits for more lines if those before end within a form. -/
theorem needsMore_of_unfinished {source : String} (h : Unfinished nestingLimit source.toList) :
  needsMore source = true
  := by
  obtain ⟨e, he, hkind⟩ := outcomes_of_unfinished source.toList h le_rfl
  rw [needsMore, List.any_eq_true]
  exact ⟨_, he, decide_eq_true hkind⟩

/-- The loop does not wait if the lines before are read as forms. -/
theorem needsMore_of_readsAll {source : String} {forms : List Value}
    (h : ReadsAll nestingLimit source.toList forms) :
  needsMore source = false
  := by
  rw [needsMore, results_of_readsAll h]
  simp

/-- Lines that end within a form are kept. -/
theorem addLine_of_unfinished {repl : Repl} {line : String}
    (h : Unfinished nestingLimit (repl.pending ++ line ++ "\n").toList) (fuel : Nat) :
  repl.addLine fuel line = some ("", ⟨repl.session, repl.pending ++ line ++ "\n"⟩)
  := by
  rw [addLine]
  simp only [needsMore_of_unfinished h, if_true]

/-- Lines that are complete are evaluated. -/
theorem addLine_of_readsAll {repl : Repl} {line : String} {forms : List Value} {text : String}
    {session : Session} (h : ReadsAll nestingLimit (repl.pending ++ line ++ "\n").toList forms)
    (hprints : Prints repl.session forms text session) :
  ∃ bound, ∀ fuel, bound ≤ fuel → repl.addLine fuel line = some (text, ⟨session, ""⟩)
  := by
  obtain ⟨bound, hanswers⟩ := answersText_of_prints hprints
  use bound
  intro fuel hfuel
  simp only [addLine, needsMore_of_readsAll h, results_of_readsAll h, hanswers fuel hfuel,
    Bool.false_eq_true, if_false, Option.bind_eq_bind, Option.bind_some, Option.pure_def]

/-- Whether a line is a command, blanks at its ends apart. -/
def IsCommand (line : String) : Prop :=
  String.ofList (Text.trim line.toList) ∈ [":help", ":env", ":quit", ":exit"]

instance (line : String) : Decidable (IsCommand line) :=
  inferInstanceAs (Decidable (_ ∈ [_, _, _, _]))

/-- A line that is no command is not taken for one. -/
theorem command?_eq_none {line : String} (h : ¬ IsCommand line) :
  command? line = none
  := by
  simp only [IsCommand, List.mem_cons, List.not_mem_nil, or_false, not_or] at h
  obtain ⟨hhelp, henv, hquit, hexit⟩ := h
  unfold command?
  split
  next heq => exact absurd heq hhelp
  next heq => exact absurd heq henv
  next heq => exact absurd heq hquit
  next heq => exact absurd heq hexit
  next => rfl

/-- A line that is neither blank nor a command is added to the pending ones. -/
theorem feed_eq_addLine {repl : Repl} {line : String} (hcommand : ¬ IsCommand line)
    (hblank : repl.pending = "" → Text.trim line.toList ≠ []) (fuel : Nat) :
  repl.feed fuel line = (repl.addLine fuel line).map fun result => (result.1, some result.2)
  := by
  rw [feed]
  split
  next hpending => simp only [if_neg (hblank hpending), command?_eq_none hcommand]
  next => rfl

/-- Nothing comes of a blank line where no form is pending. -/
theorem feed_blank {repl : Repl} {line : String} (hpending : repl.pending = "")
    (hblank : Text.trim line.toList = []) (fuel : Nat) :
  repl.feed fuel line = some ("", some repl)
  := by
  rw [feed, if_pos hpending, if_pos hblank]

/-- What is trimmed away altogether is blank. -/
theorem isBlank_of_trim {text : List Char} (h : Text.trim text = []) :
  ∀ c ∈ text, Text.isBlank c
  := by
  rw [Text.trim, List.reverse_eq_nil_iff, List.dropWhile_eq_nil_iff] at h
  rw [← List.dropWhile_eq_nil_iff]
  cases htail : text.dropWhile Text.isBlank with
  | nil => rfl
  | cons c tail =>
    have hblank : Text.isBlank c := h c (by rw [htail]; simp)
    have hhead := List.head?_dropWhile_not Text.isBlank text
    rw [htail] at hhead
    cases hblank.symm.trans hhead

/-- Blanks are skipped by a reader too. -/
theorem skipAtmosphere_blanks {text : List Char} (h : ∀ c ∈ text, Text.isBlank c)
    (more : List Char) :
  skipAtmosphere (text ++ more) = skipAtmosphere more
  := by
  induction text with
  | nil => rfl
  | cons c text ih =>
    rw [List.forall_mem_cons] at h
    have hc : isSeparator c := by
      rw [isSeparator, h.1, Bool.true_or]
    rw [← ih h.2, List.cons_append, skipAtmosphere, skipAtmosphereFrom, if_pos hc]
    rfl

/-- A blank line is skipped. -/
theorem skipAtmosphere_blank {line : List Char} (h : Text.trim line = []) (more : List Char) :
  skipAtmosphere (line ++ '\n' :: more) = skipAtmosphere more
  := by
  rw [skipAtmosphere_blanks (isBlank_of_trim h)]
  rfl

/-- The text of some lines begins with the first of them. -/
theorem unlines_cons (line : String) (lines : List String) :
  unlines (line :: lines) = line ++ "\n" ++ unlines lines
  := by
  rw [unlines, List.map_cons, String.join_cons]
  rfl

/-! ### The loop -/

/-- What the loop has before it takes lines: the pending lines, if there are any, end within a
form, and these lines complete them; the forms of all of them print the text. -/
structure Owes (repl : Repl) (lines : List String) (text : String) : Prop where
  pending : repl.pending = "" ∨ Unfinished nestingLimit repl.pending.toList
  whole : WholeLines repl.pending.toList
  forms : ∃ forms session, Prints repl.session forms text session ∧
    ReadsAll nestingLimit (repl.pending.toList ++ (unlines lines).toList) forms

/-- A line takes the loop from one such state to another, and prints the first part of the text. -/
theorem Owes.feed {repl : Repl} {line : String} {lines : List String} {text : String}
    (h : Owes repl (line :: lines) text) (hcommand : ¬ IsCommand line) :
  ∃ text₁ next text₂ bound, text = text₁ ++ text₂ ∧ Owes next lines text₂ ∧
    ∀ fuel, bound ≤ fuel → repl.feed fuel line = some (text₁, some next)
  := by
  obtain ⟨hpending, hwhole, forms, session, hprints, hreads⟩ := h
  by_cases hskipped : repl.pending = "" ∧ Text.trim line.toList = []
  · obtain ⟨hempty, hblank⟩ := hskipped
    refine ⟨"", repl, text, 0, String.empty_append.symm,
      ⟨hpending, hwhole, forms, session, hprints, ?_⟩, fun fuel _ => feed_blank hempty hblank fuel⟩
    apply hreads.of_skipAtmosphere
    rw [hempty, unlines_cons]
    symm
    simpa using skipAtmosphere_blank hblank (unlines lines).toList
  · have hfeed := feed_eq_addLine hcommand fun hempty hblank => hskipped ⟨hempty, hblank⟩
    have hsource : repl.pending.toList ++ (unlines (line :: lines)).toList
        = (repl.pending ++ line ++ "\n").toList ++ (unlines lines).toList := by
      simp [unlines_cons]
    have hlines : WholeLines (repl.pending ++ line ++ "\n").toList := by
      simp [WholeLines]
    rw [hsource] at hreads
    rcases hreads.split hlines with ⟨first, second, rfl, hfirst, hsecond⟩ | hunfinished
    · obtain ⟨text₁, between, text₂, rfl, hprints₁, hprints₂⟩ := hprints.split
      obtain ⟨bound, hbound⟩ := addLine_of_readsAll hfirst hprints₁
      refine ⟨text₁, ⟨between, ""⟩, text₂, bound, rfl,
        ⟨.inl rfl, wholeLines_nil, second, session, hprints₂, hsecond⟩, ?_⟩
      intro fuel hfuel
      rw [hfeed, hbound fuel hfuel, Option.map_some]
    · refine ⟨"", ⟨repl.session, repl.pending ++ line ++ "\n"⟩, text, 0, String.empty_append.symm,
        ⟨.inr hunfinished, hlines, forms, session, hprints, hreads⟩, ?_⟩
      intro fuel _
      rw [hfeed, addLine_of_unfinished hunfinished, Option.map_some]

/-- At the end of the lines nothing is owed. -/
theorem Owes.nil {repl : Repl} {text : String} (h : Owes repl [] text) :
  text = ""
  := by
  obtain ⟨hpending, -, forms, session, hprints, hreads⟩ := h
  rw [show (unlines []).toList = [] from rfl, List.append_nil] at hreads
  have hempty : repl.pending = "" := hpending.resolve_right hreads.not_unfinished
  rw [hempty] at hreads
  cases hreads.eq_nil rfl
  cases hprints
  rfl

/-- The lines take the loop to its end, and it prints the whole text. By induction on the lines, with a step
for each of them. -/
theorem feedAll_of_owes {repl : Repl} {lines : List String} {text : String}
    (h : Owes repl lines text) (hlines : ∀ line ∈ lines, ¬ IsCommand line) :
  ∃ bound, ∀ fuel, bound ≤ fuel → repl.feedAll fuel lines = some (text ++ farewell)
  := by
  induction lines generalizing repl text with
  | nil =>
    use 0
    intro fuel _
    rw [h.nil, feedAll, String.empty_append]
  | cons line lines ih =>
    rw [List.forall_mem_cons] at hlines
    obtain ⟨text₁, next, text₂, bound₁, rfl, hnext, hfeed⟩ := h.feed hlines.1
    obtain ⟨bound₂, hrest⟩ := ih hnext hlines.2
    use max bound₁ bound₂
    intro fuel hfuel
    have hline := hfeed fuel ((Nat.le_max_left ..).trans hfuel)
    have hlines := hrest fuel ((Nat.le_max_right ..).trans hfuel)
    simp only [feedAll, hline, hlines, Option.bind_eq_bind, Option.bind_some, Option.pure_def,
      String.append_assoc]

/-- The transcript of lines without commands that are read without errors, and whose forms have
evaluations that end, does not depend on how the forms are laid out on the lines: between the
banner and the farewell it is what evaluating the forms in their order prints. -/
theorem transcript_eq {lines : List String} {forms : List Value} {text : String}
    {session : Session} (hlines : ∀ line ∈ lines, ¬ IsCommand line)
    (hread : readAll (unlines lines) = .ok forms)
    (hprints : Prints start.session forms text session) :
  ∃ bound, ∀ fuel, bound ≤ fuel →
    transcript fuel lines = some (banner ++ (text ++ farewell))
  := by
  have howes : Owes start lines text := by
    refine ⟨.inl rfl, wholeLines_nil, forms, session, hprints, ?_⟩
    apply readsAll_of_readAll hread
  obtain ⟨bound, hbound⟩ := feedAll_of_owes howes hlines
  use bound
  intro fuel hfuel
  simp only [transcript, hbound fuel hfuel, Option.bind_eq_bind, Option.bind_some, Option.pure_def]

/-- A form over three lines, one of them blank, a form that shares a line with its end, and one whose
evaluation fails. -/
theorem transcript_eq_overLines :
  ∃ bound, ∀ fuel, bound ≤ fuel →
    transcript fuel ["(do 1", "", "2) :b", "nope"]
      = some (banner ++
          ("2\n:b\nError: Unable to resolve symbol: nope in this context\n" ++ farewell))
  := by
  have hcommands : ∀ line ∈ ["(do 1", "", "2) :b", "nope"], ¬ IsCommand line := by
    decide +kernel
  have hok : (readAll (unlines ["(do 1", "", "2) :b", "nope"])).isOk := by
    decide +kernel
  have hanswers : (answersText 20 start.session
      (results (unlines ["(do 1", "", "2) :b", "nope"]))).map Prod.fst
        = some "2\n:b\nError: Unable to resolve symbol: nope in this context\n" := by
    decide +kernel
  cases hread : readAll (unlines ["(do 1", "", "2) :b", "nope"]) with
  | error e =>
    rw [hread] at hok
    cases hok
  | ok forms =>
    obtain ⟨⟨text, session⟩, hprinted, htext⟩ := Option.map_eq_some_iff.mp hanswers
    rw [results_of_readsAll (readsAll_of_readAll hread)] at hprinted
    rw [← htext]
    apply transcript_eq hcommands hread (prints_of_answersText hprinted)

end Repl

end PocketLisp
