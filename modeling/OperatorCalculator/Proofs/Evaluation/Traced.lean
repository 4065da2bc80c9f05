import OperatorCalculator.Proofs.Evaluation.Calls
import OperatorCalculator.Trace

/-
Traced evaluations.

A traced evaluation notes an event for every step if someone listens to operands, and
none otherwise.  Either way it gives the value of the evaluation that nobody traces.
-/

set_option autoImplicit false

namespace OperatorCalculator

variable {V : Type}

def Notebook.events (interpretation : PureInterpretation V) (listener : Listener) :
    Notebook V (Event V) where
  literal token :=
    if listener .operands then [.literal token (Id.run (interpretation.literal token))]
    else []
  apply left operator right :=
    if listener .operands then
      [.applied left operator right (Id.run (interpretation.apply left operator right))]
    else []

/-- The events that go to channels someone listens to. -/
def Listener.heard (listener : Listener) (events : List (Event V)) : List (Event V) :=
  events.filter fun event => listener event.channel

theorem Listener.heard_append (listener : Listener) (front back : List (Event V)) :
    listener.heard (front ++ back) = listener.heard front ++ listener.heard back :=
  List.filter_append front back

theorem Listener.heard_singleton (listener : Listener) (event : Event V) :
    listener.heard [event] = if listener event.channel then [event] else [] := by
  rw [heard, List.filter_cons, List.filter_nil]

theorem run_record (listener : Listener) (event : Event V) (before : Array (Event V)) :
    (record listener event).run before =
      pure (⟨⟩, before ++ (listener.heard [event]).toArray) := by
  rw [record, Listener.heard_singleton]
  cases listener event.channel with
  | false => simp only [Bool.false_eq_true, if_false, StateT.run_pure, Array.append_empty]
  | true => simp

/-- Whether someone listens decides which way an operator is applied, but not the value. -/
theorem annotates_traced (interpretation : PureInterpretation V) (listener : Listener) :
    interpretation.Annotates (.events interpretation listener)
      (interpretation.traced listener) := by
  constructor
  · intro token before
    simp only [Interpretation.traced, StateT.run_bind, run_record, Listener.heard_singleton,
      pure_bind, StateT.run_pure]
    rfl
  · intro left operator right before
    cases hListener : listener .operands with
    | false =>
        simp only [Interpretation.traced, Notebook.events, hListener, Bool.false_eq_true,
          if_false, StateT.run_pure, Array.append_empty]
        rfl
    | true =>
        simp only [Interpretation.traced, Notebook.events, hListener, if_true,
          StateT.run_bind, run_record, Listener.heard_singleton, Event.channel, pure_bind,
          StateT.run_pure]
        rfl

/-! ### What a traced evaluation gives -/

variable (interpretation : PureInterpretation V) (listener : Listener)

theorem run_evaluate_traced (table : PrecedenceTable) (source : String)
    (before : Array (Event V)) :
    (evaluate (interpretation.traced listener) table source).run before =
      pure (Id.run (evaluate interpretation table source),
        before ++ (((Cursor.start table source).grouping table 1).1.notes interpretation
          (.events interpretation listener)).toArray) :=
  (annotates_traced interpretation listener).run_evaluate table source before

theorem run_evaluateTraced (table : PrecedenceTable) (source : String)
    (before : Array (Event V)) :
    (evaluateTraced interpretation listener table source).run before =
      pure (Id.run (evaluate interpretation table source),
        before ++ (listener.heard [.entered source]).toArray ++
          (((Cursor.start table source).grouping table 1).1.notes interpretation
            (.events interpretation listener)).toArray) := by
  rw [evaluateTraced, StateT.run_bind, run_record, pure_bind, run_evaluate_traced]

theorem run_evaluateQuietly (table : PrecedenceTable) (source : String)
    (before : Array (Event V)) :
    (evaluateQuietly interpretation listener table source).run before =
      pure (Id.run (evaluate interpretation table source),
        before ++ (listener.heard [.entered source]).toArray) := by
  rw [evaluateQuietly, StateT.run_bind, run_record, pure_bind]
  rfl

theorem run_renderTraced (render : V → String) (value : V) (before : Array (Event V)) :
    (renderTraced listener render value).run before =
      pure (render value, before ++ (listener.heard [.rendered value (render value)]).toArray) := by
  rw [renderTraced, StateT.run_bind, run_record, pure_bind]
  rfl

end OperatorCalculator
