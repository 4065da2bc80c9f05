import OperatorCalculator.Proofs.Evaluation.Alike

/-
Operators that an expression does not show.

Whatever an expression makes a scan, a check or an evaluation look up in a table is a text
that occurs in the expression, and is not empty.  So tables that agree on these texts cannot
be told apart there, and an operator that does not occur may be entered, moved or taken out.
The end of input has the empty text, but it is never looked up.
-/

set_option autoImplicit false

namespace OperatorCalculator

/-! ### Tables that agree -/

namespace PrecedenceTable

/-- The tables give the same level to every text that occurs among the characters. -/
def AgreeIn (characters : List Char) (first second : PrecedenceTable) : Prop :=
  ∀ text, OccursIn characters text → first.level? text = second.level? text

variable {characters : List Char} {first second : PrecedenceTable}

theorem AgreeIn.alikeIn (hAgree : AgreeIn characters first second) :
    AlikeIn characters first second := by
  constructor
  · intro text hText
    rw [contains_eq_isSome, contains_eq_isSome, hAgree text hText]
  · intro operator other hOperator hOther low high newLow newHigh hLow hHigh hNewLow hNewHigh
    rw [← hAgree operator hOperator, hLow] at hNewLow
    rw [← hAgree other hOther, hHigh] at hNewHigh
    cases hNewLow
    cases hNewHigh
    exact Iff.rfl

theorem agreeIn_enter {operator : String} (hAbsent : ¬OccursIn characters operator)
    (hAgree : AgreeIn characters first second) (word : UInt32) :
    AgreeIn characters (first.enter operator word) second := by
  intro text hText
  have other : operator ≠ text := by
    rintro rfl
    exact hAbsent hText
  rw [enter, level?_assign, if_neg other]
  exact hAgree text hText

theorem agreeIn_enterAll {entries : List (String × UInt32)}
    (hAbsent : ∀ entry ∈ entries, ¬OccursIn characters entry.1)
    (hAgree : AgreeIn characters first second) :
    AgreeIn characters (first.enterAll entries) second := by
  induction entries generalizing first with
  | nil => exact hAgree
  | cons entry entries ih =>
      have others := fun other member => hAbsent other (List.mem_cons_of_mem entry member)
      exact ih others (agreeIn_enter (hAbsent entry List.mem_cons_self) hAgree entry.2)

end PrecedenceTable

open PrecedenceTable (AgreeIn AlikeIn)

/-! ### What cannot be told apart -/

/-- With both tables the expression has the same tokens and the same fault, and an evaluation
takes the same steps and gives the same value, whatever the steps are. -/
structure ReadsTheSame (source : String) (first second : PrecedenceTable) : Prop where
  tokens : tokenize first source = tokenize second source
  fault : shapeFault? first source = shapeFault? second source
  steps : ∀ {V : Type} (interpretation : PureInterpretation V),
    (evaluate (interpretation.traced .everything) first source).run #[] =
      (evaluate (interpretation.traced .everything) second source).run #[]
  value : ∀ {m : Type → Type} [Monad m] [LawfulMonad m] {V : Type}
    (interpretation : Interpretation m V),
    evaluate interpretation first source = evaluate interpretation second source

theorem readsTheSame_of_alike {source : String} {first second : PrecedenceTable}
    (hAlike : AlikeIn source.toList first second) : ReadsTheSame source first second := by
  refine ⟨tokenize_of_alike hAlike, shapeFault?_of_alike hAlike, ?_, ?_⟩
  · intro V interpretation
    rw [evaluate_of_alike (interpretation.traced .everything) hAlike]
  · intro m _ _ V interpretation
    exact evaluate_of_alike interpretation hAlike

/-- Tables that agree on the texts of an expression cannot be told apart there.  In particular
it does not show whether operators that are empty or do not occur in it are entered into a
table, moved or taken out. -/
theorem evaluation_depends_on_occurring_texts {source : String}
    {first second : PrecedenceTable} (hAgree : AgreeIn source.toList first second) :
    ReadsTheSame source first second ∧
      ∀ (table : PrecedenceTable) (entries : List (String × UInt32)),
        (∀ entry ∈ entries, entry.1 = "" ∨ ¬entry.1.toList <:+: source.toList) →
        ReadsTheSame source (table.enterAll entries) table := by
  refine ⟨readsTheSame_of_alike hAgree.alikeIn, ?_⟩
  intro table entries hAbsent
  have absent : ∀ entry ∈ entries, ¬OccursIn source.toList entry.1 := by
    rintro entry member ⟨hSome, hOccurs⟩
    rcases hAbsent entry member with hEmpty | hNowhere
    · exact hSome hEmpty
    · exact hNowhere hOccurs
  have agree : AgreeIn source.toList (table.enterAll entries) table :=
    PrecedenceTable.agreeIn_enterAll absent (fun _ _ => rfl)
  exact readsTheSame_of_alike agree.alikeIn

/-- The last operand is the end of input, and stays one although its text is an operator. -/
theorem evaluation_depends_on_occurring_texts_at_end :
    let source := "1 +-2 * "
    let other := PrecedenceTable.standard.enterAll
      [("", 1), ("/", 0), ("+-+", 9), ("- 2", 9), ("||", 7)]
    AgreeIn source.toList other .standard ∧
      ReadsTheSame source other .standard ∧
      Id.run (evaluate Grouping.interpretation other source) =
        .application (.operand "1") "+" (.application (.operand "-2") "*" (.operand "")) := by
  intro source other
  have absent : ∀ entry ∈ [("", 1), ("/", 0), ("+-+", 9), ("- 2", 9), ("||", (7 : UInt32))],
      ¬OccursIn source.toList entry.1 := by
    decide +kernel
  have agree : AgreeIn source.toList other .standard :=
    PrecedenceTable.agreeIn_enterAll absent (fun _ _ => rfl)
  exact ⟨agree, (evaluation_depends_on_occurring_texts agree).1, by decide +kernel⟩

end OperatorCalculator
