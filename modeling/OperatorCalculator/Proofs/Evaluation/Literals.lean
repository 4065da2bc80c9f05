import OperatorCalculator.Proofs.Evaluation.Shape
import OperatorCalculator.Proofs.Token.Lexeme
import OperatorCalculator.Proofs.Value.Spelling
import OperatorCalculator.Trace

/-
Literals with operators between them.

Every literal that stands for a value is taken in as one operand, whatever the table
says and whatever stands around it.  So literals and operators with spaces between them
read back as they were put together, and evaluation folds their values.
-/

set_option autoImplicit false

namespace OperatorCalculator

open Text (byteLength)

/-! ### A literal is one operand -/

/-- The reading of a literal as an operand: which text it has, and when it is good. -/
structure Operand.Spells (table : PrecedenceTable) (operand : Operand)
    (characters : List Char) : Prop where
  text : operand.text = String.ofList characters
  isGood : operand.IsGood table ↔
    (isSigned characters = false → table.contains (String.ofList characters) = false)

variable {table : PrecedenceTable} {gap rest : List Char}

theorem Operand.spells_single {token : Token} {characters : List Char}
    (hText : token.text = String.ofList characters) (hToken : token.isEnd = false)
    (hClosed : token.kind = .quoted → token.isTerminated = true)
    (hSigned : isSigned characters = false) :
    (Operand.single token).Spells table characters := by
  constructor
  · exact hText
  · rw [IsGood, hText]
    constructor
    · rintro ⟨_, hContains, _⟩ _
      exact hContains
    · intro hContains
      exact ⟨hToken, hContains hSigned, hClosed⟩

theorem Operand.spells_signed {sign word : Token} {first : Char} {rest : List Char}
    (hText : sign.text ++ word.text = String.ofList (first :: rest))
    (hSign : first = '+' ∨ first = '-') :
    (Operand.signed sign word).Spells table (first :: rest) := by
  constructor
  · exact hText
  · simp only [IsGood, true_iff]
    intro unsigned
    rcases hSign with rfl | rfl
    · contradiction
    · contradiction

theorem Operand.reads_single_of_kind {token : Token} (hToken : token.isEnd = false)
    (hKind : token.kind ≠ .operator) (scanner : Scanner) :
    Operand.Reads (token :: (scanner.drain table).1) (.single token)
      (scanner.drain table).1 := by
  have noSign : ∀ next, token.isSignOf next = false := by
    intro next
    rw [Token.isSignOf, beq_eq_false_iff_ne.mpr hKind]
    rfl
  cases hEnd : (scanner.next table).1.isEnd with
  | true =>
      rw [Scanner.drain_of_isEnd hEnd]
      exact .single hToken (noSign _)
  | false =>
      rw [Scanner.drain_of_not_isEnd hEnd]
      exact .single hToken (noSign _)

/-- No gap separates a word from its sign, whatever operators the table knows. -/
theorem drain_signed {sign : Char} {word : List Char} (hSign : sign = '+' ∨ sign = '-')
    (hSome : word ≠ []) (hWord : word.all isWordCharacter = true)
    (table : PrecedenceTable) (offset : Nat) (hGap : gap.all isGap = true)
    (hRest : rest.head?.any isWordCharacter = false) :
    ∃ signToken wordToken behind,
      signToken.text ++ wordToken.text = String.ofList (sign :: word) ∧
      signToken.isSignOf wordToken = true ∧
      (Scanner.drain table ⟨offset, gap ++ (sign :: word ++ rest)⟩).1 =
        signToken :: wordToken :: (Scanner.drain table ⟨behind, rest⟩).1 := by
  have symbolEnds := (head?_append_of_word hSome hWord rest).2
  have signStarts : (sign :: (word ++ rest)).head?.any isGap = false :=
    isGap_eq_false_of_isSymbol (isSymbol_of_sign hSign)
  have drainSign := Scanner.drain_of_read offset hGap signStarts TokenKind.noConfusion
    (Lexeme.read_sign table hSign symbolEnds)
  have noGap : [].all isGap = true := rfl
  have drainWord := Scanner.drain_word table (offset + byteLength gap + byteLength [sign]) noGap
    hSome hWord hRest
  rw [List.nil_append] at drainWord
  rw [drainWord] at drainSign
  refine ⟨_, _, _, ?_, ?_, drainSign⟩
  · rw [← String.ofList_append]
    rfl
  · rcases hSign with rfl | rfl
    · simp [Token.isSignOf]
    · simp [Token.isSignOf]

/-- Behind a gap, and in front of another gap or the end, a literal is one operand. -/
theorem Spelling.reads {characters : List Char} (hSpelling : Spelling characters)
    (table : PrecedenceTable) (offset : Nat) (hGap : gap.all isGap = true)
    (hRest : rest.head?.all isGap = true) :
    ∃ operand behind, operand.Spells table characters ∧
      Operand.Reads (Scanner.drain table ⟨offset, gap ++ (characters ++ rest)⟩).1 operand
        (Scanner.drain table ⟨behind, rest⟩).1 := by
  have wordEnds : rest.head?.any isWordCharacter = false :=
    head?_any_eq_false_of_isGap (fun _ => isWordCharacter_eq_false_of_isGap) hRest
  cases hSpelling with
  | word hSome hWord =>
      rw [Scanner.drain_word table offset hGap hSome hWord wordEnds]
      refine ⟨_, _, ?_, Operand.reads_single_of_kind rfl TokenKind.noConfusion _⟩
      exact Operand.spells_single rfl rfl TokenKind.noConfusion (isSigned_of_word hWord)
  | signed hSign hSome hWord =>
      obtain ⟨signToken, wordToken, behind, hText, isSign, drained⟩ :=
        drain_signed hSign hSome hWord table offset hGap wordEnds
      rw [drained]
      exact ⟨.signed signToken wordToken, behind, Operand.spells_signed hText hSign,
        .signed isSign⟩
  | quoted hBody =>
      have read := Lexeme.read_quoted table hBody rest
      rw [Scanner.drain_of_read offset hGap rfl TokenKind.noConfusion read]
      refine ⟨_, _, ?_, Operand.reads_single_of_kind rfl TokenKind.noConfusion _⟩
      apply Operand.spells_single rfl rfl
      · intro _
        rw [Token.isTerminated, String.toList_ofList, hBody.endsInQuote]
        rfl
      · exact isSigned_eq_false (by decide) (by decide) _

theorem drain_operator {operator : String}
    (hText : PrecedenceTable.isOperatorText operator.toList = true)
    (hContains : table.contains operator = true) (offset : Nat) (rest : List Char) :
    ∃ token level behind, token.text = operator ∧ token.level? table = some level ∧
      (Scanner.drain table ⟨offset, ' ' :: (operator.toList ++ ' ' :: rest)⟩).1 =
        token :: (Scanner.drain table ⟨behind, ' ' :: rest⟩).1 := by
  have known : table.contains (String.ofList operator.toList) = true := by
    rwa [String.ofList_toList]
  have gap : [' '].all isGap = true := rfl
  have ends : (' ' :: rest).head?.any isSymbol = false := rfl
  have drained := Scanner.drain_operator offset gap hText known ends
  rw [PrecedenceTable.contains_eq_isSome] at known
  obtain ⟨level, hLevel⟩ := Option.isSome_iff_exists.mp known
  refine ⟨_, level, _, ?_, ?_, drained⟩
  · exact String.ofList_toList
  · exact hLevel

/-! ### Literals and operators with spaces between them -/

namespace Alternation

def joined (alternation : Alternation String String) : String :=
  " ".intercalate (alternation.first ::
    alternation.others.flatMap fun (operator, operand) => [operator, operand])

def spaced (others : List (String × String)) : List Char :=
  others.flatMap fun (operator, operand) => ' ' :: (operator.toList ++ ' ' :: operand.toList)

theorem toList_joined (alternation : Alternation String String) :
    alternation.joined.toList = alternation.first.toList ++ spaced alternation.others := by
  obtain ⟨first, others⟩ := alternation
  induction others generalizing first with
  | nil =>
      rw [joined, List.flatMap_nil, String.intercalate_singleton]
      exact (List.append_nil first.toList).symm
  | cons item others ih =>
      obtain ⟨operator, operand⟩ := item
      have behind := ih operand
      simp only [joined] at behind ⊢
      rw [List.flatMap_cons]
      simp only [List.cons_append, List.nil_append, String.intercalate_cons_cons,
        String.toList_append, behind]
      simp [spaced]

theorem head?_spaced_all_isGap (others : List (String × String)) :
    (spaced others).head?.all isGap = true := by
  cases others with
  | nil => rfl
  | cons item others => rfl

/-- An operator of the table and a literal that stands for a value. -/
def IsLegible (table : PrecedenceTable) (item : String × String) : Prop :=
  PrecedenceTable.isOperatorText item.1.toList = true ∧ table.contains item.1 = true ∧
    Spelling item.2.toList

theorem continues_spaced {others : List (String × String)}
    (hOthers : ∀ item ∈ others, IsLegible table item) (offset : Nat) :
    ∃ items stop,
      Continues table 1 (Scanner.drain table ⟨offset, spaced others⟩).1 items
        [Token.endAt stop] ∧
      textsOf items = others ∧
      ∀ item ∈ items, item.2.Spells table item.2.text.toList := by
  induction others generalizing offset with
  | nil =>
      refine ⟨[], offset, ?_, rfl, fun item member => absurd member List.not_mem_nil⟩
      rw [spaced, List.flatMap_nil, Scanner.drain_nil]
      exact .done
  | cons item others ih =>
      obtain ⟨operator, literal⟩ := item
      obtain ⟨hText, hContains, hSpelling⟩ := hOthers (operator, literal) List.mem_cons_self
      obtain ⟨token, level, behindOperator, rfl, hLevel, drained⟩ :=
        drain_operator hText hContains offset (literal.toList ++ spaced others)
      have gap : [' '].all isGap = true := rfl
      obtain ⟨operand, behindOperand, hSpells, hReads⟩ :=
        hSpelling.reads table behindOperator gap (head?_spaced_all_isGap others)
      obtain ⟨items, stop, hItems, hTexts, hAll⟩ :=
        ih (fun item member => hOthers item (List.mem_cons_of_mem _ member)) behindOperand
      have text : operand.text = literal := by
        rw [hSpells.text, String.ofList_toList]
      have characters : spaced ((token.text, literal) :: others) =
          ' ' :: (token.text.toList ++ ' ' :: (literal.toList ++ spaced others)) := by
        simp only [spaced, List.flatMap_cons, List.cons_append, List.append_assoc]
      refine ⟨(token, operand) :: items, stop, ?_, ?_, ?_⟩
      · rw [characters, drained]
        exact .more hLevel level.positive hReads hItems
      · rw [← hTexts, ← text]
        rfl
      · intro item member
        rcases List.mem_cons.mp member with rfl | deeper
        · rw [text]
          exact hSpells
        · exact hAll item deeper

theorem reads_joined {literals : Alternation String String}
    (hFirst : Spelling literals.first.toList)
    (hOthers : ∀ item ∈ literals.others, IsLegible table item) :
    ∃ (alternation : Alternation Token Operand) (stop : Nat),
      alternation.Reads table 1 (tokenize table literals.joined) [Token.endAt stop] ∧
      alternation.texts = literals ∧
      ∀ operand ∈ alternation.operands, operand.Spells table operand.text.toList := by
  have gap : [].all isGap = true := rfl
  obtain ⟨operand, behind, hSpells, hReads⟩ :=
    hFirst.reads table 0 gap (head?_spaced_all_isGap literals.others)
  obtain ⟨items, stop, hItems, hTexts, hAll⟩ := continues_spaced hOthers behind
  have text : operand.text = literals.first := by
    rw [hSpells.text, String.ofList_toList]
  refine ⟨⟨operand, items⟩, stop, ⟨_, ?_, hItems⟩, ?_, ?_⟩
  · rw [tokenize, Scanner.start, toList_joined]
    exact hReads
  · rw [texts_eq, text, hTexts]
  · intro other member
    rcases List.mem_cons.mp member with rfl | deeper
    · rw [text]
      exact hSpells
    · obtain ⟨item, hItem, rfl⟩ := List.mem_map.mp deeper
      exact hAll item hItem

theorem isGood_iff_of_spells {operands : List Operand}
    (hSpells : ∀ operand ∈ operands, operand.Spells table operand.text.toList) :
    (∀ operand ∈ operands, operand.IsGood table) ↔
      ∀ literal ∈ operands.map Operand.text,
        isSigned literal.toList = false → table.contains literal = false := by
  simp only [List.forall_mem_map]
  constructor
  · intro hGood operand member
    have spelled := (hSpells operand member).isGood.mp (hGood operand member)
    rwa [String.ofList_toList] at spelled
  · intro hOpen operand member
    apply (hSpells operand member).isGood.mpr
    rw [String.ofList_toList]
    exact hOpen operand member

theorem operands_texts (alternation : Alternation Token Operand) :
    alternation.texts.operands = alternation.operands.map Operand.text := by
  simp [operands, texts]

/-- An evaluation groups just the literals and operators that were joined. -/
theorem grouping_joined {literals : Alternation String String}
    (hFirst : Spelling literals.first.toList)
    (hOthers : ∀ item ∈ literals.others, IsLegible table item) :
    ((Cursor.start table literals.joined).grouping table 1).1.flatten = literals ∧
      ((Cursor.start table literals.joined).grouping table 1).1.Follows table := by
  obtain ⟨alternation, stop, hReads, hTexts, _⟩ := reads_joined hFirst hOthers
  obtain ⟨hFlatten, hFollows⟩ :=
    Cursor.grouping_start_of_reads hReads (Alternation.stopsAt_of_isEnd rfl [])
  exact ⟨hFlatten.trans hTexts, hFollows⟩

theorem shapeFault?_joined_eq_none_iff {literals : Alternation String String}
    (hFirst : Spelling literals.first.toList)
    (hOthers : ∀ item ∈ literals.others, IsLegible table item) :
    shapeFault? table literals.joined = none ↔
      ∀ literal ∈ literals.operands,
        isSigned literal.toList = false → table.contains literal = false := by
  obtain ⟨alternation, stop, hReads, hTexts, hSpells⟩ := reads_joined hFirst hOthers
  have operands : literals.operands = alternation.operands.map Operand.text := by
    rw [← hTexts, operands_texts]
  rw [operands, ← isGood_iff_of_spells hSpells, shapeFault?,
    faultAtOperand?_eq_findSome? hReads (Alternation.stopsAt_of_isEnd rfl []),
    Option.or_eq_none_iff, findSome?_fault?_eq_none_iff]
  exact and_iff_left rfl

/-- One literal alone groups as an operand. -/
theorem grouping_literal {literal : String} (hLiteral : Spelling literal.toList) :
    ((Cursor.start table literal).grouping table 1).1 = .operand literal := by
  have alone : (Alternation.mk literal ([] : List (String × String))).joined = literal := by
    rw [joined, List.flatMap_nil, String.intercalate_singleton]
  have nothing : ∀ item ∈ ([] : List (String × String)), IsLegible table item :=
    fun item member => absurd member List.not_mem_nil
  obtain ⟨hFlatten, hFollows⟩ := @grouping_joined table ⟨literal, []⟩ hLiteral nothing
  rw [alone] at hFlatten hFollows
  have leaf : (Grouping.operand literal).Follows table := trivial
  exact hFollows.unique leaf hFlatten

end Alternation

/-- Literals that stand for values, with operators of the table and single spaces between
them, evaluate to the fold of their values along the one grouping that follows the table.
They have the shape of an expression unless one without a sign is itself an operator, and
each of them alone evaluates to its own value. -/
theorem evaluate_joined_literals (table : PrecedenceTable)
    (literals : Alternation String String)
    (hLiterals : ∀ literal ∈ literals.operands, (Value.ofLiteral literal).isFailure = false)
    (hOperators : ∀ item ∈ literals.others,
      PrecedenceTable.isOperatorText item.1.toList = true ∧ table.contains item.1 = true) :
    (∃ grouping : Grouping,
      grouping.flatten = literals ∧ grouping.Follows table ∧
      (∀ other : Grouping, other.flatten = literals → other.Follows table →
        other = grouping) ∧
      Id.run (evaluate Value.interpretation table literals.joined) =
        Id.run (grouping.fold Value.interpretation)) ∧
    (shapeFault? table literals.joined = none ↔
      ∀ literal ∈ literals.operands,
        isSigned literal.toList = false → table.contains literal = false) ∧
    ∀ literal ∈ literals.operands,
      Id.run (evaluate Value.interpretation table literal) = Value.ofLiteral literal := by
  have spelled : ∀ literal ∈ literals.operands, Spelling literal.toList :=
    fun literal member => Value.spelling_of_isFailure_ofLiteral (hLiterals literal member)
  have hFirst : Spelling literals.first.toList := spelled _ List.mem_cons_self
  have hOthers : ∀ item ∈ literals.others, Alternation.IsLegible table item := by
    intro item member
    obtain ⟨hText, hContains⟩ := hOperators item member
    have operand : item.2 ∈ literals.operands :=
      List.mem_cons_of_mem _ (List.mem_map_of_mem member)
    exact ⟨hText, hContains, spelled _ operand⟩
  obtain ⟨hFlatten, hFollows⟩ := Alternation.grouping_joined hFirst hOthers
  refine ⟨⟨_, hFlatten, hFollows, ?_, ?_⟩, ?_, ?_⟩
  · intro other hOther otherFollows
    exact otherFollows.unique hFollows (hOther.trans hFlatten.symm)
  · rw [evaluate_eq_fold]
  · exact Alternation.shapeFault?_joined_eq_none_iff hFirst hOthers
  · intro literal member
    rw [evaluate_eq_fold, Alternation.grouping_literal (spelled literal member)]
    rfl

/-- A quoted double quote, a plus sign, and a quoted text that is an operator as well. -/
theorem evaluate_joined_literals_with_quoted_operator :
    let table := PrecedenceTable.standard.enter "\"t\"" 3
    let literals : Alternation String String := ⟨"\"\\\"\"", [("*", "+2"), ("!=", "\"t\"")]⟩
    literals.joined = "\"\\\"\" * +2 != \"t\"" ∧
      (∃ grouping : Grouping, grouping.flatten = literals ∧ grouping.Follows table ∧
        Id.run (evaluate Value.interpretation table literals.joined) =
          Id.run (grouping.fold Value.interpretation)) ∧
      Id.run (evaluate Value.interpretation table literals.joined) = .boolean true ∧
      shapeFault? table literals.joined ≠ none := by
  intro table literals
  obtain ⟨⟨grouping, hFlatten, hFollows, _, hValue⟩, hShape, _⟩ :=
    evaluate_joined_literals table literals (by decide +kernel) (by decide +kernel)
  refine ⟨by decide +kernel, ⟨grouping, hFlatten, hFollows, hValue⟩, by decide +kernel, ?_⟩
  intro noFault
  have unknown := hShape.mp noFault "\"t\"" (by decide +kernel) (by decide +kernel)
  have known : table.contains "\"t\"" = true := by
    decide +kernel
  exact Bool.noConfusion (known.symm.trans unknown)

end OperatorCalculator
