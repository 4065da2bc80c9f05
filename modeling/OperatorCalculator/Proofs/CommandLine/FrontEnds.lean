import OperatorCalculator.Proofs.CommandLine.Arguments
import OperatorCalculator.Proofs.Session.Transcript

/-
Expressions as arguments and as lines.

Expressions that are given as arguments and the same expressions on the lines of a session
without a prompt are answered alike.  A line keeps its expression if that holds no newline,
does not end in a carriage return, and is not blank.
-/

set_option autoImplicit false

namespace OperatorCalculator

/-! ### Expressions that fit on a line -/

/-- On a line of its own, with a newline behind it or without, the expression is what is
answered. -/
structure FitsOnLine (expression : String) : Prop where
  noNewline : '\n' ∉ expression.toList
  noReturn : expression.toList.getLast? ≠ some '\r'
  notBlank : Text.trim expression.toList ≠ []

namespace FitsOnLine

variable {expression : String}

theorem expressionOf_self (hFits : FitsOnLine expression) :
    Session.expressionOf expression = expression := by
  have noNewline : expression.toList.getLast? ≠ some '\n' :=
    fun ends => hFits.noNewline (List.mem_of_getLast? ends)
  rw [Session.expressionOf, Session.dropLast_eq_self noNewline,
    Session.dropLast_eq_self hFits.noReturn, String.ofList_toList]

theorem expressionOf_line (hFits : FitsOnLine expression) :
    Session.expressionOf (expression ++ "\n") = expression := by
  have characters : (expression ++ "\n").toList = expression.toList ++ ['\n'] :=
    String.toList_append
  rw [Session.expressionOf, characters, Session.dropLast_concat,
    Session.dropLast_eq_self hFits.noReturn, String.ofList_toList]

theorem isAllBlank_eq_false (hFits : FitsOnLine expression) :
    Text.isAllBlank expression.toList = false := by
  rw [← Text.isEmpty_trim]
  exact List.isEmpty_eq_false_iff.mpr hFits.notBlank

theorem bytesOf_ne_nil (hFits : FitsOnLine expression) : bytesOf expression ≠ [] := by
  intro nothing
  rw [← String.ofList_toList (s := expression), bytesOf_ofList, List.flatMap_eq_nil_iff] at nothing
  apply hFits.notBlank
  cases hCharacters : expression.toList with
  | nil => rfl
  | cons first rest =>
      have first_empty := nothing first (by rw [hCharacters]; exact List.mem_cons_self)
      exact absurd first_empty String.utf8EncodeChar_ne_nil

end FitsOnLine

/-! ### The lines of an input -/

namespace Session

/-- One expression to a line. -/
def linesOf (expressions : List String) : String :=
  String.join (expressions.map (· ++ "\n"))

theorem bytesOf_line (expression : String) :
    bytesOf (expression ++ "\n") = bytesOf expression ++ [10] := by
  have newline : bytesOf "\n" = [10] := by
    decide +kernel
  rw [bytesOf_append, newline]

theorem bytesOf_linesOf_cons (expression : String) (expressions : List String) :
    bytesOf (linesOf (expression :: expressions)) =
      bytesOf expression ++ 10 :: bytesOf (linesOf expressions) := by
  rw [linesOf, List.map_cons, String.join_cons, bytesOf_append, bytesOf_line, List.append_assoc,
    List.singleton_append, linesOf]

/-- The expressions on the lines of an input are the given ones. -/
def HasOnLines (input : List UInt8) (expressions : List String) : Prop :=
  ∃ texts : List String, CutsLines input (texts.map bytesOf) ∧
    texts.map expressionOf = expressions

variable {expression : String} {expressions : List String} {input rest : List UInt8}

theorem newline_not_mem_bytesOf (hFits : FitsOnLine expression) : 10 ∉ bytesOf expression :=
  fun member => hFits.noNewline (newline_mem_bytesOf_iff.mp member)

theorem hasOnLines_last (hFits : FitsOnLine expression) :
    HasOnLines (bytesOf expression) [expression] := by
  refine ⟨[expression], .last (newline_not_mem_bytesOf hFits) hFits.bytesOf_ne_nil, ?_⟩
  rw [List.map_singleton, hFits.expressionOf_self]

theorem HasOnLines.cons (hFits : FitsOnLine expression) (hRest : HasOnLines rest expressions) :
    HasOnLines (bytesOf expression ++ 10 :: rest) (expression :: expressions) := by
  rcases hRest with ⟨texts, hCuts, hTexts⟩
  refine ⟨(expression ++ "\n") :: texts, ?_, ?_⟩
  · rw [List.map_cons, bytesOf_line]
    exact .line (newline_not_mem_bytesOf hFits) hCuts
  · rw [List.map_cons, hFits.expressionOf_line, hTexts]

/-- It does not matter whether the last newline is there. -/
theorem hasOnLines_of_linesOf (hFits : ∀ expression ∈ expressions, FitsOnLine expression)
    (hInput : input = bytesOf (linesOf expressions) ∨
      input ++ [10] = bytesOf (linesOf expressions)) :
    HasOnLines input expressions := by
  induction expressions generalizing input with
  | nil =>
      rcases hInput with rfl | impossible
      · exact ⟨[], .nothing, rfl⟩
      · exact absurd impossible (List.concat_ne_nil 10 input)
  | cons expression expressions ih =>
      rcases List.forall_mem_cons.mp hFits with ⟨first, others⟩
      rw [bytesOf_linesOf_cons] at hInput
      rcases hInput with rfl | hInput
      · exact .cons first (ih others (Or.inl rfl))
      · -- The newline that is missing is the last one, unless no expression is left.
        rcases List.eq_nil_or_concat (bytesOf (linesOf expressions)) with
          nothing | ⟨rest, last, hRest⟩
        · rw [nothing] at hInput
          obtain rfl := List.append_cancel_right hInput
          cases expressions with
          | nil => exact hasOnLines_last first
          | cons next expressions =>
              rw [bytesOf_linesOf_cons] at nothing
              exact absurd nothing (List.append_ne_nil_of_right_ne_nil _ (List.cons_ne_nil _ _))
        · rw [List.concat_eq_append] at hRest
          rw [hRest, ← List.cons_append, ← List.append_assoc] at hInput
          obtain ⟨rfl, hLast⟩ := List.append_inj' hInput rfl
          cases hLast
          exact .cons first (ih others (Or.inr hRest.symm))

end Session

/-! ### Answers to arguments and answers to lines -/

theorem Transcript.perform_notes (transcript : Transcript) (events : List (Event Value))
    (acts : List Act) :
    transcript.perform none (events.map .note ++ acts) =
      perform none { transcript with events := transcript.events ++ events.toArray } acts := by
  induction events generalizing transcript with
  | nil => rw [List.map_nil, List.nil_append, Array.append_empty]
  | cons event events ih =>
      rw [List.map_cons, List.cons_append, perform, ih]
      simp

namespace CommandLine

variable {settings : Settings}

theorem run_answerAll_cons (expression : String) (expressions : List String)
    (before : Array (Event Value)) :
    (answerAll settings (expression :: expressions)).run before =
      let first := (settings.answer (listener settings) expression).run #[]
      let others := (answerAll settings expressions).run (before ++ first.2)
      (first.1 ++ "\n" ++ others.1, others.2) := by
  have answered : (settings.answer (listener settings) expression).run before =
      (((settings.answer (listener settings) expression).run #[]).1,
        before ++ ((settings.answer (listener settings) expression).run #[]).2) := by
    apply Prod.ext
    · rw [Settings.fst_run_answer, Settings.fst_run_answer]
    · exact settings.snd_run_answer_eq_append (listener settings) expression before
  rw [answerAll, StateT.run_bind, answered]
  rfl

/-- Nobody listens to the beginnings of lines. -/
theorem run_announceAndAnswer (expression : String) :
    (Session.announceAndAnswer settings (listener settings) expression).run #[] =
      (settings.answer (listener settings) expression).run #[] := by
  have unheard : listener settings (Event.evaluating (V := Value) expression).channel = false :=
    Bool.and_false settings.trace
  rw [Session.announceAndAnswer, StateT.run_bind, run_record, Listener.heard_singleton, unheard]
  rfl

theorem perform_turn {text : String}
    (hInk : Text.isAllBlank (Session.expressionOf text).toList = false) (transcript : Transcript) :
    transcript.perform none (Session.turn settings (listener settings) text) =
      let first := (settings.answer (listener settings) (Session.expressionOf text)).run #[]
      { transcript with
        output := transcript.output ++ (first.1 ++ "\n").toUTF8
        events := transcript.events ++ first.2 } := by
  rw [Session.turn, hInk, if_neg Bool.false_ne_true, run_announceAndAnswer]
  cases (settings.answer (listener settings) (Session.expressionOf text)).run #[] with
  | mk answer events =>
      show transcript.perform none (events.toList.map .note ++ [.write (answer ++ "\n")]) = _
      rw [Transcript.perform_notes, Array.toArray_toList]
      rfl

theorem perform_script (hPrompt : settings.prompt = "") {texts : List String}
    (hInk : ∀ text ∈ texts, Text.isAllBlank (Session.expressionOf text).toList = false)
    (transcript : Transcript) :
    transcript.perform none (Session.script settings (listener settings) (texts.map bytesOf)) =
      let answers := (answerAll settings (texts.map Session.expressionOf)).run transcript.events
      { transcript with output := transcript.output ++ answers.1.toUTF8, events := answers.2 } := by
  induction texts generalizing transcript with
  | nil =>
      rw [List.map_nil, Session.script, hPrompt]
      rfl
  | cons text texts ih =>
      have first := hInk text List.mem_cons_self
      have others : ∀ other ∈ texts,
          Text.isAllBlank (Session.expressionOf other).toList = false :=
        fun other member => hInk other (List.mem_cons_of_mem _ member)
      have prompted : ∀ acts, transcript.perform none (.write "" :: acts) =
          transcript.perform none acts := by
        intro acts
        rw [Transcript.perform]
        exact congrArg (fun output => Transcript.perform none { transcript with output := output } acts)
          ByteArray.append_empty
      rw [List.map_cons, Session.script, Session.respond, fromUTF8?_toByteArray_bytesOf, hPrompt,
        List.cons_append, prompted, Transcript.perform_append _
          (fun act => Session.ne_giveUp_of_mem_turn settings (listener settings)),
        perform_turn first, ih others, List.map_cons, run_answerAll_cons]
      simp only [String.toUTF8_eq_toByteArray, String.toByteArray_append, ByteArray.append_assoc]

theorem answerAll_prompt (settings : Settings) (prompt : String) (expressions : List String) :
    answerAll { settings with prompt := prompt } expressions = answerAll settings expressions := by
  induction expressions with
  | nil => rfl
  | cons expression expressions ih =>
      rw [answerAll, answerAll, ih]
      rfl

/-! ### Runs of the command -/

variable {arguments : List String} {choices : Choices}

theorem run_of_expressions (hRead : Choices.takeArguments {} arguments = .ok choices)
    (hSome : choices.expressions ≠ []) (input : List UInt8) :
    run arguments input =
      let answers := (answerAll choices.settings choices.expressions).run #[]
      ⟨0, answers.1.toUTF8, logLines answers.2.toList⟩ := by
  have asked : request arguments = .ok (.evaluate choices.settings choices.expressions) := by
    rw [request, hRead]
    exact if_neg (by rwa [List.isEmpty_iff])
  rw [run, asked]
  rfl

theorem run_of_no_expressions (hRead : Choices.takeArguments {} arguments = .ok choices)
    (hNone : choices.expressions = []) (input : List UInt8) :
    run arguments input =
      let transcript := Session.run choices.settings (listener choices.settings) none input
      ⟨transcript.ending.exitCode, transcript.output, logLines transcript.events.toList⟩ := by
  have asked : request arguments = .ok (.converse choices.settings) := by
    rw [request, hRead]
    exact if_pos (by rw [hNone]; rfl)
  rw [run, asked]

/-- A session without a prompt, each line of which holds one of the expressions, has the
outcome of a run on the expressions. -/
theorem run_of_lines {options : Options} {texts : List String} {input : List UInt8}
    (hRead : Choices.takeArguments {} arguments = .ok (options.choices [] (some "")))
    (hCuts : Session.CutsLines input (texts.map bytesOf))
    (hInk : ∀ text ∈ texts, Text.isAllBlank (Session.expressionOf text).toList = false) :
    run arguments input =
      let expressions := texts.map Session.expressionOf
      let settings := (options.choices expressions none).settings
      let answers := (answerAll settings expressions).run #[]
      ⟨0, answers.1.toUTF8, logLines answers.2.toList⟩ := by
  have noPrompt : (options.choices [] (some "")).settings.prompt = "" := rfl
  have performed := perform_script noPrompt hInk ⟨.empty, #[], .finished⟩
  have session : (options.choices [] (some "")).settings =
      { (options.choices (texts.map Session.expressionOf) none).settings with prompt := "" } := rfl
  rw [run_of_no_expressions hRead rfl, Session.run, hCuts.splitLines_eq, performed, session,
    answerAll_prompt]
  simp only [ByteArray.empty_append]
  rfl

end CommandLine

open CommandLine

/-- Options and expressions can be given as arguments, and the same options and an empty prompt.
However that is written, the expressions on the lines of an input, with a newline at the end or
without, have the outcome of the expressions as arguments: the output is the same, and so is
the log, and the exit code is zero. -/
theorem arguments_and_lines_are_answered_alike (options : Options) (expressions : List String)
    (hSome : expressions ≠ []) (hFits : ∀ expression ∈ expressions, FitsOnLine expression) :
    (Choices.takeArguments {}
          (options.arguments ++ expressions.flatMap (valueArguments .expression)) =
        .ok (options.choices expressions none) ∧
      Choices.takeArguments {} (options.arguments ++ ["--prompt", ""]) =
        .ok (options.choices [] (some ""))) ∧
    ∀ evaluating conversing,
      Choices.takeArguments {} evaluating = .ok (options.choices expressions none) →
      Choices.takeArguments {} conversing = .ok (options.choices [] (some "")) →
      ∀ ignored input,
        (input = bytesOf (Session.linesOf expressions) ∨
          input ++ [10] = bytesOf (Session.linesOf expressions)) →
        let evaluated := run evaluating ignored
        let conversed := run conversing input
        evaluated.output = conversed.output ∧ evaluated.log = conversed.log ∧
          evaluated.exitCode = 0 ∧ conversed.exitCode = 0 := by
  refine ⟨⟨?_, ?_⟩, ?_⟩
  · have read := Choices.takeArguments_expressions (options.choices [] none) expressions []
    rw [List.append_nil, Choices.takeArguments_nil] at read
    rw [Choices.takeArguments_options, read]
    rfl
  · have given : (options.choices [] none).give .prompt "" = .ok (options.choices [] (some "")) :=
      rfl
    have read := Choices.takeArguments_valueArguments rfl given []
    rw [Choices.takeArguments_nil] at read
    rw [Choices.takeArguments_options]
    exact read
  · intro evaluating conversing hEvaluating hConversing ignored input hInput evaluated conversed
    rcases Session.hasOnLines_of_linesOf hFits hInput with ⟨texts, hCuts, hTexts⟩
    have ink : ∀ text ∈ texts, Text.isAllBlank (Session.expressionOf text).toList = false := by
      intro text member
      have inExpressions : Session.expressionOf text ∈ expressions := by
        rw [← hTexts]
        exact List.mem_map_of_mem member
      exact (hFits _ inExpressions).isAllBlank_eq_false
    have session := run_of_lines hConversing hCuts ink
    have alone := run_of_expressions hEvaluating hSome ignored
    rw [hTexts] at session
    have same : evaluated = conversed := alone.trans session.symm
    rw [← same]
    exact ⟨rfl, rfl, congrArg Outcome.exitCode alone, congrArg Outcome.exitCode alone⟩

/-- An operator of its own, an expression that looks like an option, and one that is refused. -/
theorem arguments_and_lines_are_answered_alike_under_strict_options :
    let entry : AcceptedEntry := ⟨"**=6", "**", ⟨6, by decide, by decide⟩, by rfl⟩
    let options : Options := ⟨true, true, [entry]⟩
    let expressions := ["-2 ** 3", "t &&"]
    let evaluating := ["--strict", "--trace", "-p", "**=6", "--expr=-2 ** 3", "-e", "t &&"]
    let conversing := ["--strict", "--trace", "-p", "**=6", "--prompt", ""]
    let input := bytesOf "-2 ** 3\nt &&"
    (expressions ≠ [] ∧ (∀ expression ∈ expressions, FitsOnLine expression) ∧
        Choices.takeArguments {} evaluating = .ok (options.choices expressions none) ∧
        Choices.takeArguments {} conversing = .ok (options.choices [] (some ""))) ∧
      (run evaluating []).output = (run conversing input).output ∧
      (run conversing input).exitCode = 0 := by
  intro entry options expressions evaluating conversing input
  have fits : ∀ expression ∈ expressions, FitsOnLine expression := by
    simp only [expressions, List.forall_mem_cons]
    refine ⟨?_, ?_, fun _ impossible => by contradiction⟩
    · exact ⟨by decide +kernel, by decide +kernel, by decide +kernel⟩
    · exact ⟨by decide +kernel, by decide +kernel, by decide +kernel⟩
  have hSome : expressions ≠ [] := List.cons_ne_nil _ _
  have alike := arguments_and_lines_are_answered_alike options expressions hSome fits
  have written : options.arguments ++ expressions.flatMap (valueArguments .expression) =
      evaluating := by
    decide +kernel
  have opened : options.arguments ++ ["--prompt", ""] = conversing := by
    decide +kernel
  rw [written, opened] at alike
  obtain ⟨⟨hEvaluating, hConversing⟩, same⟩ := alike
  have outcomes := same evaluating conversing hEvaluating hConversing [] input
    (Or.inr (by decide +kernel))
  exact ⟨⟨hSome, fits, hEvaluating, hConversing⟩, outcomes.1, outcomes.2.2.2⟩

end OperatorCalculator
