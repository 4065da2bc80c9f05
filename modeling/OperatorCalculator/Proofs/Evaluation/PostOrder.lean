import OperatorCalculator.Proofs.Evaluation.Span
import OperatorCalculator.Proofs.Evaluation.Traced

/-
The steps of an evaluation along its grouping.

The events of an evaluation are those of its grouping in post-order.  Operands are made
once each and from left to right, with the text that stands in the expression.  An operator
is applied once, right behind the last step of its right operand, which takes in just the
operators that bind tighter.
-/

set_option autoImplicit false

namespace OperatorCalculator

variable {V : Type}

namespace Event

def token? : Event V → Option String
  | .literal token _ => some token
  | .entered _ | .evaluating _ | .applied .. | .rendered .. => none

def operator? : Event V → Option String
  | .applied _ operator _ _ => some operator
  | .entered _ | .evaluating _ | .literal .. | .rendered .. => none

end Event

namespace Grouping

/-! ### Post-order -/

/-- All operands and applications of a grouping, each one behind its own parts. -/
def postOrder : Grouping → List Grouping
  | .operand text => [.operand text]
  | .application left operator right =>
      left.postOrder ++ right.postOrder ++ [.application left operator right]

/-- The step that makes an operand, or that applies an operator to two values. -/
def step (interpretation : PureInterpretation V) : Grouping → Event V
  | .operand text => .literal text (Id.run (interpretation.literal text))
  | .application left operator right =>
      .applied (Id.run (left.fold interpretation)) operator (Id.run (right.fold interpretation))
        (Id.run ((Grouping.application left operator right).fold interpretation))

def steps (interpretation : PureInterpretation V) (grouping : Grouping) : List (Event V) :=
  grouping.postOrder.map (step interpretation)

variable (interpretation : PureInterpretation V)

theorem steps_application (left right : Grouping) (operator : String) :
    (Grouping.application left operator right).steps interpretation =
      left.steps interpretation ++ right.steps interpretation ++
        [(Grouping.application left operator right).step interpretation] := by
  rw [steps, postOrder, List.map_append, List.map_append]
  rfl

theorem channel_step (grouping : Grouping) :
    (grouping.step interpretation).channel = .operands := by
  cases grouping with
  | operand text => rfl
  | application left operator right => rfl

theorem heard_step (listener : Listener) (grouping : Grouping) :
    listener.heard [grouping.step interpretation] =
      if listener .operands then [grouping.step interpretation] else [] := by
  rw [Listener.heard_singleton, channel_step]

theorem notes_eq_heard_steps (listener : Listener) (grouping : Grouping) :
    grouping.notes interpretation (.events interpretation listener) =
      listener.heard (grouping.steps interpretation) := by
  induction grouping with
  | operand text => exact (heard_step interpretation listener (.operand text)).symm
  | application left operator right ihLeft ihRight =>
      rw [notes, ihLeft, ihRight, steps_application, Listener.heard_append,
        Listener.heard_append, heard_step]
      rfl

theorem notes_eq_steps (grouping : Grouping) :
    grouping.notes interpretation (.events interpretation .everything) =
      grouping.steps interpretation := by
  rw [notes_eq_heard_steps]
  exact List.filter_eq_self.mpr (fun _ _ => rfl)

theorem filterMap_token?_steps (grouping : Grouping) :
    (grouping.steps interpretation).filterMap Event.token? = grouping.flatten.operands := by
  induction grouping with
  | operand text => rfl
  | application left operator right ihLeft ihRight =>
      rw [steps_application, List.filterMap_append, List.filterMap_append, ihLeft, ihRight]
      simp [flatten, Alternation.operands, Event.token?, step]

theorem filterMap_operator?_steps (grouping : Grouping) :
    ((grouping.steps interpretation).filterMap Event.operator?).Perm
      (grouping.flatten.others.map Prod.fst) := by
  induction grouping with
  | operand text => exact List.Perm.nil
  | application left operator right ihLeft ihRight =>
      rw [steps_application, List.filterMap_append, List.filterMap_append, flatten,
        List.map_append, List.map_cons, List.append_assoc]
      apply ihLeft.append
      exact (List.perm_append_singleton _ _).trans (ihRight.cons operator)

/-! ### When an operator is applied -/

/-- The steps of a grouping around the application of the operator behind `front`.  Its right
operand starts with `operand` and goes on with `taken`; `rest` is what it leaves. -/
structure Applies (table : PrecedenceTable) (whole : Grouping)
    (front : List (String × String)) (operator operand : String)
    (left right : Grouping) (taken rest : List (String × String))
    (earlier later : List (Event V)) : Prop where
  steps : whole.steps interpretation =
    earlier ++ (Grouping.application left operator right).steps interpretation ++ later
  before : (earlier ++ left.steps interpretation).filterMap Event.token? =
    whole.flatten.first :: front.map Prod.snd
  right : right.flatten = ⟨operand, taken⟩
  behind : later.filterMap Event.token? = rest.map Prod.snd
  tighter : ∀ item ∈ taken, rankOf table operator < rankOf table item.1
  looser : ∀ item, rest.head? = some item → rankOf table item.1 ≤ rankOf table operator

variable {table : PrecedenceTable} {left right part other : Grouping}
  {front taken rest : List (String × String)} {operator operand top : String}
  {earlier later : List (Event V)}

theorem Applies.of_left
    (hApplies : Applies interpretation table part front operator operand left right taken rest
      earlier later)
    (hTop : rankOf table top ≤ rankOf table operator) :
    Applies interpretation table (.application part top other) front operator operand left right
      taken (rest ++ (top, other.flatten.first) :: other.flatten.others) earlier
      (later ++ other.steps interpretation ++
        [(Grouping.application part top other).step interpretation]) := by
  refine ⟨?_, hApplies.before, hApplies.right, ?_, hApplies.tighter, ?_⟩
  · rw [steps_application, hApplies.steps]
    simp only [List.append_assoc]
  · rw [List.filterMap_append, List.filterMap_append, hApplies.behind, filterMap_token?_steps]
    simp [Alternation.operands, Event.token?, step]
  · intro item hItem
    cases rest with
    | nil =>
        cases hItem
        exact hTop
    | cons next rest => exact hApplies.looser item hItem

theorem Applies.of_right
    (hApplies : Applies interpretation table part front operator operand left right taken rest
      earlier later) :
    Applies interpretation table (.application other top part)
      (other.flatten.others ++ (top, part.flatten.first) :: front) operator operand left right
      taken rest (other.steps interpretation ++ earlier)
      (later ++ [(Grouping.application other top part).step interpretation]) := by
  refine ⟨?_, ?_, hApplies.right, ?_, hApplies.tighter, hApplies.looser⟩
  · rw [steps_application, hApplies.steps]
    simp only [List.append_assoc]
  · have before := hApplies.before
    rw [List.append_assoc, List.filterMap_append, before, filterMap_token?_steps]
    simp [Alternation.operands, flatten]
  · rw [List.filterMap_append, hApplies.behind]
    simp [Event.token?, step]

theorem Follows.applies_top (hFollows : (Grouping.application left top right).Follows table) :
    Applies interpretation table (.application left top right) left.flatten.others top
      right.flatten.first left right right.flatten.others [] [] [] := by
  refine ⟨?_, ?_, rfl, rfl, hFollows.ranks.2, ?_⟩
  · rw [List.nil_append, List.append_nil]
  · rw [List.nil_append, filterMap_token?_steps]
    rfl
  · intro item impossible
    contradiction

theorem Follows.exists_applies {whole : Grouping} (hFollows : whole.Follows table)
    {back : List (String × String)}
    (hOthers : whole.flatten.others = front ++ (operator, operand) :: back) :
    ∃ left right taken rest earlier later,
      Applies interpretation table whole front operator operand left right taken rest earlier
        later ∧ back = taken ++ rest := by
  induction whole generalizing front back with
  | operand text => simp [flatten] at hOthers
  | application first top second ihFirst ihSecond =>
      have ranks := hFollows.ranks
      have here := hFollows.applies_top interpretation
      rcases hFollows with ⟨level, hLevel, firstFollows, _, secondFollows, _⟩
      -- The operator is one of the second part, the top one, or one of the first part.
      rcases append_cons_cases hOthers with
        ⟨between, rfl, hSecond⟩ | ⟨rfl, hTop, rfl⟩ | ⟨between, hFirst, rfl⟩
      · rcases ihSecond secondFollows hSecond with
          ⟨left, right, taken, rest, earlier, later, hApplies, hBack⟩
        exact ⟨left, right, taken, rest, _, _, hApplies.of_right interpretation, hBack⟩
      · cases hTop
        exact ⟨first, second, _, [], [], [], here, (List.append_nil _).symm⟩
      · rcases ihFirst firstFollows hFirst with
          ⟨left, right, taken, rest, earlier, later, hApplies, rfl⟩
        have atLeast := ranks.1 (operator, operand) (by simp [hFirst])
        refine ⟨left, right, taken, _, earlier, _, hApplies.of_left interpretation atLeast, ?_⟩
        rw [List.append_assoc]

theorem Applies.of_rank_le {whole : Grouping}
    (hApplies : Applies interpretation table whole front operator operand left right taken rest
      earlier later)
    {next : String × String} {others : List (String × String)}
    (hBack : taken ++ rest = next :: others)
    (hNext : rankOf table next.1 ≤ rankOf table operator) :
    right = .operand operand ∧
      later.filterMap Event.token? = next.2 :: others.map Prod.snd := by
  cases taken with
  | cons item taken =>
      cases hBack
      have above := hApplies.tighter next List.mem_cons_self
      omega
  | nil =>
      rw [List.nil_append] at hBack
      constructor
      · have only := hApplies.right
        cases right with
        | operand text =>
            cases only
            rfl
        | application first top second => simp [flatten] at only
      · rw [hApplies.behind, hBack, List.map_cons]

end Grouping

open Alternation (textsOf)

/-- An evaluation takes the steps of its grouping in post-order, whatever the steps are.  It
makes every operand once, from left to right and out of its slice of the expression, and
applies every operator once, right behind the last step of its right operand. -/
theorem evaluation_steps_in_post_order (interpretation : PureInterpretation V)
    (table : PrecedenceTable) (source : String) :
    let run := (evaluate (interpretation.traced .everything) table source).run #[]
    let steps := run.2.toList
    let grouping := Grouping.ofSource table source
    run.1 = Id.run (evaluate interpretation table source) ∧
      steps = grouping.postOrder.map (Grouping.step interpretation) ∧
      (∀ {m : Type → Type} [Monad m] [LawfulMonad m] {W : Type} (other : Interpretation m W),
        evaluate other table source = grouping.fold other) ∧
      grouping.Follows table ∧
      ∃ alternation : Alternation Token Operand,
        alternation.Reads table 1 (tokenize table source)
          ((Cursor.stop interpretation table source).upcoming table) ∧
        grouping.flatten = alternation.texts ∧
        steps.filterMap Event.token? = alternation.operands.map Operand.text ∧
        (∀ operand ∈ alternation.operands, operand.LiesIn source) ∧
        (alternation.operands.Pairwise fun first second =>
          first.span.stop ≤ second.span.start) ∧
        (steps.filterMap Event.operator?).Perm
          (alternation.others.map fun item => item.1.text) ∧
        ∀ front item back, alternation.others = front ++ item :: back →
          ∃ left right taken rest earlier later,
            grouping.Applies interpretation table (textsOf front) item.1.text item.2.text left
              right taken rest earlier later ∧
            textsOf back = taken ++ rest ∧
            ∀ next others, back = next :: others →
              Grouping.rankOf table next.1.text ≤ Grouping.rankOf table item.1.text →
                right = .operand item.2.text ∧
                  later.filterMap Event.token? =
                    next.2.text :: others.map fun other => other.2.text := by
  intro run steps grouping
  have hRun : run = (Id.run (evaluate interpretation table source),
      #[] ++ (grouping.notes interpretation (.events interpretation .everything)).toArray) :=
    run_evaluate_traced interpretation .everything table source #[]
  have hSteps : steps = grouping.steps interpretation := by
    simp only [steps, hRun, Array.empty_append, Grouping.notes_eq_steps]
  have partition := tokenize_partition table source
  have groups := Cursor.groups_stop interpretation table source
  rcases groups.reads with ⟨alternation, hReads, hAlternation⟩
  have hFlatten : grouping.flatten = alternation.texts := hAlternation
  refine ⟨congrArg Prod.fst hRun, hSteps, ?_, groups.follows, alternation, hReads, hFlatten, ?_,
    hReads.liesIn partition, hReads.inOrder partition.inOrder, ?_, ?_⟩
  · intro m _ _ W other
    exact evaluate_eq_fold other table source
  · rw [hSteps, Grouping.filterMap_token?_steps, hFlatten]
    simp [Alternation.operands, Alternation.texts]
  · have once := Grouping.filterMap_operator?_steps interpretation grouping
    rw [hSteps]
    rw [hFlatten, Alternation.texts, List.map_map] at once
    exact once
  · intro front item back hOthers
    have place : grouping.flatten.others =
        textsOf front ++ (item.1.text, item.2.text) :: textsOf back := by
      rw [hFlatten, Alternation.texts_eq, hOthers]
      simp [textsOf]
    rcases groups.follows.exists_applies interpretation place with
      ⟨left, right, taken, rest, earlier, later, hApplies, hBack⟩
    refine ⟨left, right, taken, rest, earlier, later, hApplies, hBack, ?_⟩
    intro next others hNext hRank
    have behind : taken ++ rest = (next.1.text, next.2.text) :: textsOf others := by
      rw [← hBack, hNext]
      rfl
    have alone := hApplies.of_rank_le interpretation behind hRank
    rw [textsOf, List.map_map] at alone
    exact alone

end OperatorCalculator
