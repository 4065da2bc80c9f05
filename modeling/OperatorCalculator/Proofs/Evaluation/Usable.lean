import OperatorCalculator.Proofs.Evaluation.Literals
import OperatorCalculator.Proofs.PrecedenceTable.Entry
import OperatorCalculator.Proofs.Token.Truncated

/-
Operators that can be used.

An operator that an entry gives a level to stands between any two words, with gaps around it
or without: whatever else the table knows, no longer or shorter operator takes its symbols.
On the other hand a scan makes operators of symbols only, so each of them can be given any
level by an entry.
-/

set_option autoImplicit false

namespace OperatorCalculator

open Text (byteLength)

/-! ### Operators between words -/

theorem Alternation.reads_words {table : PrecedenceTable} {left operator right : Token}
    (level : Level) (hLeft : left.kind = .word) (hLevel : operator.level? table = some level)
    (hRight : right.kind = .word) (last : Token) :
    Alternation.Reads table 1 [left, operator, right, last]
      ⟨.single left, [(operator, .single right)]⟩ [last] := by
  have alone : ∀ {word : Token}, word.kind = .word → ∀ next rest,
      Operand.Reads (word :: next :: rest) (.single word) (next :: rest) := by
    intro word hWord next rest
    apply Operand.Reads.single
    · exact Token.isEnd_eq_false_of_kind hWord TokenKind.noConfusion
    · rw [Token.isSignOf, hWord]
      rfl
  exact ⟨_, alone hLeft _ _, .more hLevel level.positive (alone hRight last []) .done⟩

structure Word where
  text : String
  nonempty : text.toList ≠ []
  characters : text.toList.all isWordCharacter = true

structure Gap where
  text : String
  characters : text.toList.all isGap = true

/-- Two words with an operator between them, and gaps around that, which may be empty. -/
structure Application where
  left : Word
  before : Gap
  operator : String
  behind : Gap
  right : Word

namespace Application

def source (application : Application) : String :=
  application.left.text ++ application.before.text ++ application.operator ++
    application.behind.text ++ application.right.text

def tokens (application : Application) : List Token :=
  let stop := byteLength application.left.text.toList
  let operatorStart := stop + byteLength application.before.text.toList
  let operatorStop := operatorStart + byteLength application.operator.toList
  let rightStart := operatorStop + byteLength application.behind.text.toList
  let rightStop := rightStart + byteLength application.right.text.toList
  [⟨.word, application.left.text, ⟨0, stop⟩⟩,
    ⟨.operator, application.operator, ⟨operatorStart, operatorStop⟩⟩,
    ⟨.word, application.right.text, ⟨rightStart, rightStop⟩⟩,
    Token.endAt rightStop]

variable {table : PrecedenceTable} {application : Application}

theorem tokenize_source
    (hText : PrecedenceTable.isOperatorText application.operator.toList = true)
    (hContains : table.contains application.operator = true) :
    tokenize table application.source = application.tokens := by
  obtain ⟨left, before, operator, behind, right⟩ := application
  have known : table.contains (String.ofList operator.toList) = true := by
    rwa [String.ofList_toList]
  obtain ⟨hSome, hSymbols⟩ := PrecedenceTable.isOperatorText_iff.mp hText
  -- The first word ends where the gap or the operator starts, and the operator where the
  -- other gap or the other word starts.
  have wordEnds := head?_append_of_gap (fun _ => isWordCharacter_eq_false_of_isGap)
    before.characters (head?_append_of_symbols hSome hSymbols (behind.text.toList ++
      (right.text.toList ++ []))).2
  have symbolsEnd := head?_append_of_gap (fun _ => isSymbol_eq_false_of_isGap)
    behind.characters (head?_append_of_word right.nonempty right.characters []).2
  have noGap : [].all isGap = true := rfl
  have characters : (source ⟨left, before, operator, behind, right⟩).toList =
      [] ++ (left.text.toList ++ (before.text.toList ++ (operator.toList ++
        (behind.text.toList ++ (right.text.toList ++ []))))) := by
    simp only [source, String.toList_append, List.append_assoc, List.append_nil, List.nil_append]
  rw [tokenize, Scanner.start, characters,
    Scanner.drain_word table 0 noGap left.nonempty left.characters wordEnds,
    Scanner.drain_operator _ before.characters hText known symbolsEnd,
    Scanner.drain_word table _ behind.characters right.nonempty right.characters rfl,
    Scanner.drain_nil]
  simp only [tokens, String.ofList_toList, Text.byteLength_nil, Nat.zero_add, Nat.add_zero]

/-- The words are operands even if the table knows them as operators. -/
theorem reads_tokens {level : Level} (hLevel : table.level? application.operator = some level) :
    ∃ (alternation : Alternation Token Operand) (stop : Nat),
      alternation.Reads table 1 application.tokens [Token.endAt stop] ∧
      alternation.texts =
        ⟨application.left.text, [(application.operator, application.right.text)]⟩ := by
  refine ⟨_, _, Alternation.reads_words level rfl ?_ rfl _, rfl⟩
  exact hLevel

/-- An evaluation applies the operator to the words. -/
theorem evaluate_source {m : Type → Type} [Monad m] [LawfulMonad m] {V : Type}
    (interpretation : Interpretation m V)
    (hText : PrecedenceTable.isOperatorText application.operator.toList = true)
    {level : Level} (hLevel : table.level? application.operator = some level) :
    evaluate interpretation table application.source = (do
      let left ← interpretation.literal application.left.text
      let right ← interpretation.literal application.right.text
      interpretation.apply left application.operator right) := by
  have known : table.contains application.operator = true := by
    rw [PrecedenceTable.contains_eq_isSome, hLevel]
    rfl
  obtain ⟨alternation, stop, hReads, hTexts⟩ := reads_tokens hLevel
  rw [← tokenize_source hText known] at hReads
  obtain ⟨hFlatten, hFollows⟩ :=
    Cursor.grouping_start_of_reads hReads (Alternation.stopsAt_of_isEnd rfl [])
  have tree : Grouping.Follows table (.application (.operand application.left.text)
      application.operator (.operand application.right.text)) :=
    ⟨level, hLevel, trivial, trivial, trivial, trivial⟩
  rw [evaluate_eq_fold, hFollows.unique tree (hFlatten.trans hTexts)]
  rfl

end Application

/-! ### Operators that are scanned -/

theorem Lexeme.Takes.isOperatorText {table : PrecedenceTable} {characters taken rest : List Char}
    (hTakes : Takes table characters .operator taken rest)
    (hHead : characters.head?.any isGap = false) :
    PrecedenceTable.isOperatorText taken = true := by
  rcases hTakes.of_operator hHead with ⟨run, back, _, hRun, _, hMunches⟩
  exact PrecedenceTable.isOperatorText_iff.mpr ⟨hTakes.ne_nil, hMunches.all hRun⟩

/-- Every operator that is scanned is made of symbols. -/
theorem isOperatorText_next {table : PrecedenceTable} {scanner : Scanner}
    (hKind : (scanner.next table).1.kind = .operator) :
    PrecedenceTable.isOperatorText (scanner.next table).1.text.toList = true := by
  have token := Token.isEnd_eq_false_of_kind hKind TokenKind.noConfusion
  have starts := Lexeme.head?_any_dropWhile isGap scanner.remaining
  rw [Scanner.dropWhile_eq_append table] at starts
  have takes := Scanner.takes_next token
  rw [hKind] at takes
  exact takes.isOperatorText starts

/-- Alone, a text is scanned as one operator of the table. -/
def PrecedenceTable.IsScannedWhole (table : PrecedenceTable) (text : String) : Prop :=
  table.contains text = true ∧
    ∃ span stop, tokenize table text = [⟨.operator, text, span⟩, Token.endAt stop]

theorem PrecedenceTable.isScannedWhole_of_contains {table : PrecedenceTable} {operator : String}
    (hText : isOperatorText operator.toList = true) (hContains : table.contains operator = true) :
    table.IsScannedWhole operator := by
  have known : table.contains (String.ofList operator.toList) = true := by
    rwa [String.ofList_toList]
  have noGap : [].all isGap = true := rfl
  have ends : [].head?.any isSymbol = false := rfl
  have characters : operator.toList = [] ++ (operator.toList ++ []) := (List.append_nil _).symm
  have drained := Scanner.drain_operator 0 noGap hText known ends
  rw [← characters, Scanner.drain_nil, String.ofList_toList] at drained
  exact ⟨hContains, _, _, drained⟩

theorem PrecedenceTable.IsScannedWhole.isOperatorText {table : PrecedenceTable}
    {operator : String} (hWhole : table.IsScannedWhole operator) :
    PrecedenceTable.isOperatorText operator.toList = true := by
  obtain ⟨_, span, stop, hTokens⟩ := hWhole
  obtain ⟨rest, hRest⟩ := Scanner.exists_drain_eq_cons table (.start operator)
  have first := (List.cons.inj (hRest.symm.trans hTokens)).1
  have symbols := @isOperatorText_next table (.start operator) (by rw [first])
  rwa [first] at symbols

/-- An operator that an entry gives a level to stands between any two words, with gaps around
it or without, whatever else the table knows: that is how it is scanned, and any evaluation
applies it to the words.  A text is one operator for the scanner, alone and with some table,
just if entries can give every level to it. -/
theorem entered_operators_stand_between_words :
    (∀ (entry operator : String) (level : Level),
      PrecedenceTable.parseEntry entry = .ok (operator, level) →
      ∀ (table : PrecedenceTable) (application : Application),
        application.operator = operator →
        let entered := table.assign operator (some level)
        tokenize entered application.source = application.tokens ∧
        ∀ (m : Type → Type) [Monad m] [LawfulMonad m] (V : Type)
          (interpretation : Interpretation m V),
          evaluate interpretation entered application.source = (do
            let left ← interpretation.literal application.left.text
            let right ← interpretation.literal application.right.text
            interpretation.apply left operator right)) ∧
    ∀ operator : String,
      (∃ table : PrecedenceTable, table.IsScannedWhole operator) ↔
        ∀ level : Level, PrecedenceTable.parseEntry (operator ++ "=" ++ toString level.rank) =
          .ok (operator, level) := by
  refine ⟨?_, ?_⟩
  · rintro entry operator level hEntry table application rfl entered
    have hText := (PrecedenceTable.parseEntry_eq_ok_iff.mp hEntry).1
    have hLevel : entered.level? application.operator = some level :=
      (PrecedenceTable.level?_assign table _ _ _).trans (if_pos rfl)
    have known : entered.contains application.operator = true := by
      rw [PrecedenceTable.contains_eq_isSome, hLevel]
      rfl
    refine ⟨Application.tokenize_source hText known, ?_⟩
    intro m _ _ V interpretation
    exact Application.evaluate_source interpretation hText hLevel
  · intro operator
    constructor
    · rintro ⟨table, hWhole⟩ level
      exact PrecedenceTable.parseEntry_append_toString hWhole.isOperatorText level
    · intro hAccepted
      let lowest : Level := ⟨1, by decide, by decide⟩
      have hText := (PrecedenceTable.parseEntry_eq_ok_iff.mp (hAccepted lowest)).1
      have known : (PrecedenceTable.empty.assign operator (some lowest)).contains operator := by
        rw [PrecedenceTable.contains_eq_isSome, PrecedenceTable.level?_assign, if_pos rfl]
        rfl
      exact ⟨_, PrecedenceTable.isScannedWhole_of_contains hText known⟩

end OperatorCalculator
