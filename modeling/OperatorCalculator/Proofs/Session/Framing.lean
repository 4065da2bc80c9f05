import OperatorCalculator.Proofs.Evaluation.Alike
import OperatorCalculator.Proofs.Evaluation.FirstFailure
import OperatorCalculator.Proofs.Evaluation.Span
import OperatorCalculator.Proofs.Session.Transcript
import OperatorCalculator.Proofs.Sliced.Answer
import OperatorCalculator.Proofs.Value.OneLine

/-
Lines of a session.

An expression on one line is answered on one line, unless strict settings refuse it: a report
has four lines.  So without strict settings and without a prompt a session writes one line for
each line that it reads, those that are blank apart.
-/

set_option autoImplicit false

namespace OperatorCalculator

/-! ### The value of an expression -/

theorem Grouping.newlines_render_value {grouping : Grouping}
    (hFirst : newlines grouping.flatten.first = 0)
    (hOthers : ∀ item ∈ grouping.flatten.others, newlines item.1 = 0 ∧ newlines item.2 = 0) :
    newlines grouping.value.render = 0 := by
  induction grouping with
  | operand text => exact Value.newlines_render_ofLiteral hFirst
  | application left operator right ihLeft ihRight =>
      rw [flatten, List.forall_mem_append, List.forall_mem_cons] at hOthers
      rcases hOthers with ⟨inLeft, ⟨hOperator, hRight⟩, inRight⟩
      rw [value_application]
      exact Value.newlines_render_apply (ihLeft hFirst inLeft) hOperator (ihRight hRight inRight)

variable {table : PrecedenceTable} {source : String}

theorem newlines_text_of_mem_tokenize (hSource : newlines source = 0) {token : Token}
    (member : token ∈ tokenize table source) : newlines token.text = 0 := by
  have sliced := (tokenize_partition table source).sliced token member
  rcases Text.slice?_eq_some_iff.mp sliced with ⟨front, back, whole, _, _⟩
  apply newlines_eq_zero_of_subset hSource
  rw [whole]
  exact List.Subset.trans (List.subset_append_left _ _) (List.subset_append_right _ _)

theorem newlines_render_evaluate (hSource : newlines source = 0) :
    newlines (Id.run (evaluate Value.interpretation table source)).render = 0 := by
  have single : ∀ token ∈ tokenize table source,
      newlines (Operand.single token).text = 0 :=
    fun _ => newlines_text_of_mem_tokenize hSource
  have signed : ∀ sign ∈ tokenize table source, ∀ word ∈ tokenize table source,
      sign.isSignOf word = true → newlines (Operand.signed sign word).text = 0 :=
    fun _ atSign _ atWord _ => newlines_append_eq_zero (single _ atSign) (single _ atWord)
  rcases (Cursor.groups_start table source).reads with ⟨alternation, hReads, hFlatten⟩
  have operands := hReads.of_tokens (P := fun operand => newlines operand.text = 0) single signed
  rcases hReads with ⟨behind, hFirst, hOthers⟩
  have operators := hOthers.occursIn
    ((textsOccurIn_tokenize table source).suffix hFirst.suffix)
  rw [evaluate_eq_fold]
  apply Grouping.newlines_render_value
  · rw [hFlatten]
    exact operands alternation.first List.mem_cons_self
  · rw [hFlatten]
    intro item member
    refine ⟨newlines_eq_zero_of_subset hSource (operators item member).2.subset, ?_⟩
    rcases List.mem_map.mp member with ⟨other, inOthers, rfl⟩
    exact operands other.2 (List.mem_cons_of_mem _ (List.mem_map_of_mem inOthers))

/-! ### The report on a fault -/

theorem newlines_intercalate {first : String} {lines : List String}
    (hLines : ∀ line ∈ first :: lines, newlines line = 0) :
    newlines ("\n".intercalate (first :: lines)) = lines.length := by
  induction lines generalizing first with
  | nil =>
      rw [String.intercalate_singleton]
      exact hLines first List.mem_cons_self
  | cons second lines ih =>
      rcases List.forall_mem_cons.mp hLines with ⟨hFirst, behind⟩
      have newline : newlines "\n" = 1 := by
        decide +kernel
      rw [String.intercalate_cons_cons, newlines_append, newlines_append, hFirst, newline,
        ih behind, List.length_cons]
      omega

theorem newlines_padLeft (width : Nat) {character : Char} (hCharacter : character ≠ '\n') :
    newlines (String.ofList (padLeft width [character])) = 0 := by
  rw [newlines_eq_zero_iff, String.toList_ofList, padLeft]
  intro member
  rcases List.mem_append.mp member with padding | here
  · have space := List.eq_of_mem_replicate padding
    contradiction
  · exact hCharacter (List.mem_singleton.mp here).symm

theorem Cause.newlines_name (cause : Cause) : newlines cause.name = 0 := by
  unfold name
  split
  all_goals decide +kernel

theorem Cause.newlines_of_tip? {cause : Cause} (hFound : newlines cause.found = 0) {tip : String}
    (hTip : cause.tip? = some tip) : newlines tip = 0 := by
  cases cause with
  | expectedOperand found =>
      rw [tip?] at hTip
      split at hTip
      · cases hTip
        decide +kernel
      · cases hTip
        exact (newlines_around hFound _ _).trans (by decide +kernel)
  | trailingInput found =>
      cases hTip
      exact (newlines_around hFound _ _).trans (by decide +kernel)
  | unterminatedString found =>
      cases hTip
      decide +kernel
  | invalidPrecedence entry => contradiction

theorem Cause.newlines_heading {cause : Cause} (hFound : newlines cause.found = 0) :
    newlines cause.heading = 0 := by
  have opening : newlines ("Error: " ++ cause.name) = 0 :=
    newlines_append_eq_zero (by decide +kernel) cause.newlines_name
  rw [heading]
  split
  · rename_i tip hTip
    exact newlines_append_eq_zero
      (newlines_append_eq_zero (newlines_append_eq_zero opening (by decide +kernel))
        (newlines_of_tip? hFound hTip)) (by decide +kernel)
  · exact opening

theorem Text.text_subset_of_locateFrom? {number : Nat} {lines : List (List Char)} {offset : Nat}
    {location : Location} (hLocation : locateFrom? number lines offset = some location) :
    location.text ⊆ lines.flatten := by
  have lineText_subset : ∀ line, lineText line ⊆ line := by
    intro line
    rcases dropEndWhile_append (fun character => character == '\n' || character == '\r') line with
      ⟨dropped, whole, _⟩
    intro character member
    rw [whole]
    exact List.mem_append_left dropped member
  induction lines generalizing number offset with
  | nil =>
      cases hLocation
      exact List.nil_subset _
  | cons line lines ih =>
      have inFront : line ⊆ (line :: lines).flatten := List.subset_append_left _ _
      rw [locateFrom?] at hLocation
      split at hLocation
      · rcases Option.map_eq_some_iff.mp hLocation with ⟨halves, _, rfl⟩
        exact List.Subset.trans (lineText_subset line) inFront
      · split at hLocation
        · cases hLocation
          exact List.Subset.trans (lineText_subset line) inFront
        · exact List.Subset.trans (ih hLocation) (List.subset_append_right _ _)

theorem newlines_report {fault : Fault} (hSource : newlines source = 0)
    (hFault : shapeFault? table source = some fault) :
    newlines ((fault.report? source).getD fault.message) = 3 := by
  rcases exists_location_of_shapeFault? hFault with ⟨location, hLocation⟩
  rcases exists_token_of_shapeFault? hFault with ⟨token, member, _, hFound⟩
  have found : newlines fault.cause.found = 0 := by
    rw [hFound]
    exact newlines_text_of_mem_tokenize hSource member
  have shown : newlines (String.ofList location.text) = 0 := by
    apply newlines_eq_zero_of_subset hSource
    have inSource := Text.text_subset_of_locateFrom? hLocation
    rwa [Text.splitLines_flatten, ← String.toList_ofList (l := location.text)] at inSource
  rw [Fault.report?, hLocation]
  have number : newlines (toString location.line) = 0 := newlines_repr location.line
  have margin : ∀ width, newlines (String.ofList (padLeft width ['|'])) = 0 :=
    fun width => newlines_padLeft width (by decide)
  have caret : ∀ width, newlines (String.ofList (padLeft width ['^'])) = 0 :=
    fun width => newlines_padLeft width (by decide)
  apply newlines_intercalate
  simp only [List.forall_mem_cons]
  refine ⟨Cause.newlines_heading found, margin _, ?_, ?_, fun _ impossible => by contradiction⟩
  · exact newlines_append_eq_zero (newlines_append_eq_zero number (by decide +kernel)) shown
  · exact newlines_append_eq_zero (newlines_append_eq_zero (margin _) (by decide +kernel))
      (caret _)

theorem Settings.newlines_reply (settings : Settings) {line : String} (hLine : newlines line = 0) :
    newlines (settings.reply line) =
      if settings.strict && (shapeFault? settings.table line).isSome then 3 else 0 := by
  have lenient : newlines
      (Id.run (evaluate Value.interpretation settings.table line)).render = 0 :=
    newlines_render_evaluate hLine
  rw [reply]
  cases settings.strict with
  | false => exact lenient
  | true =>
      cases hFault : shapeFault? settings.table line with
      | none => exact lenient
      | some fault => exact newlines_report hLine hFault

/-! ### The expression on a line -/

namespace Session

theorem dropLast_cases (character : Char) (characters : List Char) :
    dropLast character characters = characters ∨
      characters = dropLast character characters ++ [character] := by
  have strips : Strips character characters (dropLast character characters) :=
    strips_iff.mpr rfl
  generalize dropLast character characters = rest at strips ⊢
  cases strips with
  | mark => exact Or.inr rfl
  | nothing => exact Or.inl rfl

theorem dropLast_subset (character : Char) (characters : List Char) :
    dropLast character characters ⊆ characters := by
  rcases dropLast_cases character characters with same | dropped
  · rw [same]
    exact List.Subset.refl characters
  · intro other member
    rw [dropped]
    exact List.mem_append_left [character] member

theorem all_dropLast {P : Char → Bool} {character : Char} (hCharacter : P character = true)
    (characters : List Char) :
    (dropLast character characters).all P = characters.all P := by
  rcases dropLast_cases character characters with same | dropped
  · rw [same]
  · have whole := congrArg (List.all · P) dropped
    simp only [List.all_append, List.all_cons, hCharacter, List.all_nil, Bool.and_true] at whole
    exact whole.symm

theorem isAllBlank_expressionOf (line : String) :
    Text.isAllBlank (expressionOf line).toList = Text.isAllBlank line.toList := by
  rw [expressionOf, String.toList_ofList, Text.isAllBlank, all_dropLast (by decide),
    all_dropLast (by decide), Text.isAllBlank]

/-- A newline can only be the last byte of a line. -/
theorem CutsLines.exists_piece {input line : List UInt8} {lines : List (List UInt8)}
    (hCuts : CutsLines input lines) (member : line ∈ lines) :
    ∃ piece, 10 ∉ piece ∧ (line = piece ∨ line = piece ++ [10]) := by
  induction hCuts with
  | nothing => contradiction
  | @last piece hPiece _ => exact ⟨piece, hPiece, Or.inl (List.mem_singleton.mp member)⟩
  | @line piece _ _ hPiece _ ih =>
      rcases List.mem_cons.mp member with rfl | deeper
      · exact ⟨piece, hPiece, Or.inr rfl⟩
      · exact ih deeper

theorem newline_not_mem_dropLast {text : String} {piece : List UInt8} (hPiece : 10 ∉ piece)
    (hText : bytesOf text = piece ++ [10]) : '\n' ∉ dropLast '\n' text.toList := by
  rcases List.eq_nil_or_concat text.toList with nothing | ⟨front, last, whole⟩
  · rw [nothing]
    exact List.not_mem_nil
  · rw [List.concat_eq_append] at whole
    -- The last byte belongs to the last character, which is a newline then.
    have bytes : front.flatMap String.utf8EncodeChar ++ String.utf8EncodeChar last =
        piece ++ [10] := by
      rw [← hText, ← String.ofList_toList (s := text), bytesOf_ofList, whole]
      simp
    have lastByte : (10 : UInt8) ∈ String.utf8EncodeChar last := by
      have ends := congrArg List.getLast? bytes
      rw [List.getLast?_append, List.getLast?_eq_some_getLast String.utf8EncodeChar_ne_nil,
        Option.some_or, List.getLast?_concat] at ends
      rw [← Option.some.inj ends]
      exact List.getLast_mem _
    obtain rfl := eq_newline_of_mem_utf8EncodeChar lastByte
    have front_eq : front.flatMap String.utf8EncodeChar = piece :=
      List.append_cancel_right bytes
    rw [whole, dropLast_concat]
    intro member
    apply hPiece
    rw [← front_eq]
    exact List.mem_flatMap.mpr ⟨'\n', member, by decide⟩

theorem CutsLines.newlines_expressionOf {input : List UInt8} {lines : List (List UInt8)}
    (hCuts : CutsLines input lines) {text : String} (member : bytesOf text ∈ lines) :
    newlines (expressionOf text) = 0 := by
  rw [newlines_eq_zero_iff, expressionOf, String.toList_ofList]
  rcases hCuts.exists_piece member with ⟨piece, hPiece, rfl | hText⟩
  · rw [newline_mem_bytesOf_iff] at hPiece
    exact fun inside => hPiece (dropLast_subset _ _ (dropLast_subset _ _ inside))
  · exact fun inside => newline_not_mem_dropLast hPiece hText (dropLast_subset _ _ inside)

/-! ### The lines of a session -/

variable (settings : Settings) (listener : Listener)

/-- What is written for lines that are not blank, if nothing else is written. -/
def answers (texts : List String) : List String :=
  (texts.filter fun text => !Text.isAllBlank text.toList).map fun text =>
    ((settings.answer listener (expressionOf text)).run #[]).1

theorem cutsLines_sessionText (hPrompt : settings.prompt = "") {texts : List String}
    (hAnswers : ∀ answer ∈ answers settings listener texts, newlines answer = 0) :
    CutsLines (bytesOf (settings.sessionText listener (texts.map expressionOf)))
      ((answers settings listener texts).map fun answer => bytesOf (answer ++ "\n")) := by
  induction texts with
  | nil =>
      rw [List.map_nil, Settings.sessionText_nil, hPrompt]
      exact .nothing
  | cons text texts ih =>
      rw [List.map_cons, Settings.sessionText_cons, hPrompt, String.empty_append,
        bytesOf_append, Settings.lineText, Text.isEmpty_trim, isAllBlank_expressionOf]
      cases hBlank : Text.isAllBlank text.toList with
      | true =>
          have skipped : answers settings listener (text :: texts) =
              answers settings listener texts := by
            simp [answers, hBlank]
          rw [skipped] at hAnswers ⊢
          exact ih hAnswers
      | false =>
          have answered : answers settings listener (text :: texts) =
              ((settings.answer listener (expressionOf text)).run #[]).1 ::
                answers settings listener texts := by
            simp [answers, hBlank]
          rw [answered] at hAnswers ⊢
          rcases List.forall_mem_cons.mp hAnswers with ⟨hFirst, others⟩
          rw [newlines_eq_zero_iff, ← newline_mem_bytesOf_iff] at hFirst
          have newline : bytesOf "\n" = [10] := by
            decide +kernel
          rw [if_neg Bool.false_ne_true, List.map_cons, bytesOf_append, newline, List.append_assoc]
          exact .line hFirst (ih others)

end Session

/-- An expression on one line is answered on one line, whatever newlines are in the texts that
it computes, unless strict settings refuse it: then the answer has four lines.  So if nothing is
refused and there is no prompt, the lines of the output are the answers to those lines of the
input that are not blank. -/
theorem session_answers_each_line_on_one_line (settings : Settings) (listener : Listener) :
    (∀ (line : String) (before : Array (Event Value)), newlines line = 0 →
      newlines ((settings.answer listener line).run before).1 =
        if settings.strict && (shapeFault? settings.table line).isSome then 3 else 0) ∧
    (settings.prompt = "" → settings.strict = false → ∀ input, IsText input →
      ∃ texts : List String, Session.CutsLines input (texts.map bytesOf) ∧
        let output := (Session.run settings listener none input).output.data.toList
        Session.CutsLines output
            ((Session.answers settings listener texts).map fun answer =>
              bytesOf (answer ++ "\n")) ∧
          (Session.splitLines output).length =
            texts.countP fun text => !Text.isAllBlank text.toList) := by
  have framed : ∀ (line : String) (before : Array (Event Value)), newlines line = 0 →
      newlines ((settings.answer listener line).run before).1 =
        if settings.strict && (shapeFault? settings.table line).isSome then 3 else 0 := by
    intro line before hLine
    rw [Settings.fst_run_answer]
    exact settings.newlines_reply hLine
  refine ⟨framed, ?_⟩
  intro hPrompt hStrict input hInput
  rcases Session.exists_texts_of_isText hInput with ⟨texts, hTexts⟩
  have cuts := Session.cutsLines_splitLines input
  rw [hTexts] at cuts
  have written : (Session.run settings listener none input).output =
      (settings.sessionText listener (texts.map Session.expressionOf)).toUTF8 :=
    congrArg Prod.fst (Session.result_run_of_texts settings listener hTexts)
  have onOneLine : ∀ answer ∈ Session.answers settings listener texts, newlines answer = 0 := by
    intro answer member
    rcases List.mem_map.mp member with ⟨text, inTexts, rfl⟩
    have inInput := List.mem_map_of_mem (f := bytesOf) (List.mem_filter.mp inTexts).1
    rw [framed _ #[] (cuts.newlines_expressionOf inInput), hStrict]
    rfl
  have outputCuts : Session.CutsLines
      (Session.run settings listener none input).output.data.toList
      ((Session.answers settings listener texts).map fun answer => bytesOf (answer ++ "\n")) := by
    rw [written]
    exact Session.cutsLines_sessionText settings listener hPrompt onOneLine
  refine ⟨texts, cuts, outputCuts, ?_⟩
  rw [outputCuts.splitLines_eq, List.length_map, Session.answers, List.length_map,
    List.countP_eq_length_filter]

/-- A report, and a session in which newlines are written only as escapes. -/
theorem session_answers_each_line_on_one_line_of_escapes :
    let input := bytesOf "\"a\\n\" * 2\n \t\n'\\n' + x"
    let session : Settings := { prompt := "" }
    Id.run (evaluate Value.interpretation .standard "\"a\\n\" * 2") = .text "a\na\n" ∧
      newlines ((({ strict := true } : Settings).answer (fun _ => false) "1 2").run #[]).1 = 3 ∧
      ∃ texts : List String, Session.CutsLines input (texts.map bytesOf) ∧
        (Session.splitLines
            (Session.run session (fun _ => false) none input).output.data.toList).length =
          texts.countP fun text => !Text.isAllBlank text.toList := by
  intro input session
  refine ⟨by decide +kernel, ?_, ?_⟩
  · rw [(session_answers_each_line_on_one_line { strict := true } (fun _ => false)).1 "1 2" #[]
      (by decide +kernel)]
    decide +kernel
  · rcases (session_answers_each_line_on_one_line session (fun _ => false)).2 rfl rfl input
      ⟨_, rfl⟩ with ⟨texts, hCuts, _, hLength⟩
    exact ⟨texts, hCuts, hLength⟩

end OperatorCalculator
