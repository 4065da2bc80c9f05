import OperatorCalculator.Proofs.Evaluation.Fold

/-
What an evaluation reads and what it gives.

From any cursor that it can come to, an evaluation with a least rank reads the
longest alternation of operands and of operators of that rank, stops in front of the
first token behind it, and gives the fold of the one grouping of that alternation
that follows the levels of the table.
-/

set_option autoImplicit false

namespace OperatorCalculator

theorem Token.level?_text_of_level? {table : PrecedenceTable} {token : Token} {level : Level}
    (hLevel : token.level? table = some level) : table.level? token.text = some level := by
  rw [← hLevel, Token.level?, isEnd_eq_false_of_level? hLevel]
  rfl

theorem Level.rank_tighter {level tighter : Level} (hTighter : level.tighter? = some tighter) :
    tighter.rank = level.rank + 1 :=
  Level.ofRank?_eq_some_iff.mp hTighter

theorem Level.rank_le_of_tighter?_eq_none {level : Level} (hTighter : level.tighter? = none)
    (other : Level) : other.rank ≤ level.rank := by
  have bounded := other.bounded
  have positive := level.positive
  rw [Level.tighter?, Level.ofRank?, dite_eq_right_iff] at hTighter
  have outside : ¬(1 ≤ level.rank + 1 ∧ level.rank + 1 ≤ 4294967295) := fun inside => by
    have impossible := hTighter inside
    contradiction
  omega

namespace Alternation

def textsOf (others : List (Token × Operand)) : List (String × String) :=
  others.map fun (operator, operand) => (operator.text, operand.text)

theorem texts_eq (alternation : Alternation Token Operand) :
    alternation.texts = ⟨alternation.first.text, textsOf alternation.others⟩ := rfl

end Alternation

namespace Cursor

open Alternation (Continues StopsAt textsOf)

variable {table : PrecedenceTable} {minimum : Nat}

/-- An expression was read off a list, and the cursor behind it is where that stops. -/
structure Groups (table : PrecedenceTable) (minimum : Nat) (tokens : List Token)
    (result : Grouping) (behind : Cursor) : Prop where
  scanned : behind.IsScanned table
  stops : StopsAt table minimum (behind.upcoming table)
  follows : result.Follows table
  binds : result.BindsFrom table minimum
  reads : ∃ alternation : Alternation Token Operand,
    alternation.Reads table minimum tokens (behind.upcoming table) ∧
      result.flatten = alternation.texts

/-- A grouping was carried on with what was read off a list. -/
structure Grows (table : PrecedenceTable) (minimum : Nat) (left : Grouping)
    (tokens : List Token) (result : Grouping) (behind : Cursor) : Prop where
  scanned : behind.IsScanned table
  stops : StopsAt table minimum (behind.upcoming table)
  follows : result.Follows table
  binds : result.BindsFrom table minimum
  continues : ∃ others, Continues table minimum tokens others (behind.upcoming table) ∧
    result.flatten = ⟨left.flatten.first, left.flatten.others ++ textsOf others⟩

theorem Grows.groups {tokens behindOperand : List Token} {operand : Operand}
    {result : Grouping} {behind : Cursor}
    (hOperand : Operand.Reads tokens operand behindOperand)
    (hGrows : Grows table minimum (.operand operand.text) behindOperand result behind) :
    Groups table minimum tokens result behind := by
  obtain ⟨others, hOthers, hFlatten⟩ := hGrows.continues
  exact ⟨hGrows.scanned, hGrows.stops, hGrows.follows, hGrows.binds,
    ⟨operand, others⟩, ⟨behindOperand, hOperand, hOthers⟩, hFlatten⟩

theorem stopsAt_upcoming_iff {cursor : Cursor} :
    StopsAt table minimum (cursor.upcoming table) ↔
      ∀ level, cursor.level? table = some level → level.rank < minimum := by
  rw [StopsAt, head?_upcoming]
  constructor
  · intro stops level hLevel
    exact stops cursor.current rfl level hLevel
  · intro below token hToken level hLevel
    obtain rfl : cursor.current = token := Option.some.inj hToken
    exact below level hLevel

/-- The right operand of an operator takes in exactly what binds tighter.  On the highest
level that is a single operand, and no operator behind it can bind tighter either. -/
theorem groups_rightGrouping {level : Level} {cursor : Cursor}
    (hScanned : cursor.IsScanned table)
    (hTighter : ∀ tighter, level.tighter? = some tighter →
      Groups table tighter.rank (cursor.upcoming table)
        (cursor.grouping table tighter.rank).1 (cursor.grouping table tighter.rank).2.val) :
    Groups table (level.rank + 1) (cursor.upcoming table)
      (cursor.rightGrouping table level).1 (cursor.rightGrouping table level).2.val := by
  cases hNext : level.tighter? with
  | some tighter =>
      rw [rightGrouping_of_tighter? hNext, ← Level.rank_tighter hNext]
      exact hTighter tighter hNext
  | none =>
      obtain ⟨operand, hOperand, hText, hBehind⟩ := reads_operand hScanned
      rw [rightGrouping_of_tighter?_eq_none hNext, ← hText]
      refine ⟨hBehind, ?_, trivial, trivial, ⟨operand, []⟩, ⟨_, hOperand, .done⟩, rfl⟩
      rw [stopsAt_upcoming_iff]
      intro other _
      have highest := Level.rank_le_of_tighter?_eq_none hNext other
      omega

/-- The invariant of the climb: the grouping on the left follows the table and binds at
least as tightly as the operator in view. -/
theorem grows_grow {origin : Cursor} {left : Grouping} {cursor : origin.Onward}
    (hScanned : cursor.val.IsScanned table) (hFollows : left.Follows table)
    (hBinds : left.BindsFrom table minimum)
    (hView : ∀ level, cursor.val.level? table = some level → left.BindsFrom table level.rank) :
    Grows table minimum left (cursor.val.upcoming table)
      (grow table origin minimum left cursor).1
      (grow table origin minimum left cursor).2.val := by
  induction origin, minimum, left, cursor using Cursor.climb.induct table with
  | case1 origin minimum left cursor hLevel =>
      rw [grow_of_level?_eq_none left hLevel]
      refine ⟨hScanned, ?_, hFollows, hBinds, [], .done, by simp [textsOf]⟩
      rw [stopsAt_upcoming_iff, hLevel]
      intro level impossible
      contradiction
  | case3 origin minimum left cursor level hLevel hRank =>
      have lower : level.rank < minimum := Nat.lt_of_not_le hRank
      rw [grow_of_rank_lt left hLevel lower]
      refine ⟨hScanned, ?_, hFollows, hBinds, [], .done, by simp [textsOf]⟩
      rw [stopsAt_upcoming_iff]
      intro other hOther
      obtain rfl : level = other := Option.some.inj (hLevel.symm.trans hOther)
      exact lower
  | case2 origin minimum left cursor level hLevel hRank start text behind hOperand ihRight
      ihRest =>
      have startScanned : start.IsScanned table := isScanned_advance table cursor.val
      have right : Groups table (level.rank + 1) (start.upcoming table)
          (start.rightGrouping table level).1 (start.rightGrouping table level).2.val := by
        apply groups_rightGrouping startScanned
        intro tighter _
        obtain ⟨operand, hReads, hText, hBehind⟩ := reads_operand startScanned
        rw [grouping_eq_grow, ← hText]
        apply Grows.groups hReads
        obtain rfl : (start.operand table).2 = behind := congrArg Prod.snd hOperand
        exact ihRight (.operand operand.text) tighter hBehind trivial trivial
          (fun _ _ => trivial)
      obtain ⟨alternation, ⟨behindOperand, hFirst, hTaken⟩, rightFlatten⟩ := right.reads
      have symbol : table.level? cursor.val.current.text = some level :=
        Token.level?_text_of_level? hLevel
      have rest := ihRest (start.rightGrouping table level).2
        (.application left cursor.val.current.text (start.rightGrouping table level).1)
        right.scanned
        ⟨level, symbol, hFollows, hView level hLevel, right.follows, right.binds⟩
        ⟨level, symbol, hRank⟩
        (fun next hNext => by
          have below := stopsAt_upcoming_iff.mp right.stops next hNext
          exact ⟨level, symbol, by omega⟩)
      rw [grow_of_le_rank left hLevel hRank]
      obtain ⟨others, hOthers, hFlatten⟩ := rest.continues
      refine ⟨rest.scanned, rest.stops, rest.follows, rest.binds,
        (cursor.val.current, alternation.first) :: alternation.others ++ others, ?_, ?_⟩
      · rw [upcoming_eq_cons_advance (isEnd_eq_false_of_level? hLevel)]
        exact .more hLevel hRank hFirst ((hTaken.mono (by omega)).append hOthers)
      · rw [hFlatten, Grouping.flatten, rightFlatten]
        simp [Alternation.texts, textsOf]

theorem groups_grouping {cursor : Cursor} (hScanned : cursor.IsScanned table)
    (minimum : Nat) :
    Groups table minimum (cursor.upcoming table) (cursor.grouping table minimum).1
      (cursor.grouping table minimum).2.val := by
  obtain ⟨operand, hOperand, hText, hBehind⟩ := reads_operand hScanned
  rw [grouping_eq_grow, ← hText]
  apply Grows.groups hOperand
  exact grows_grow hBehind trivial trivial (fun _ _ => trivial)

/-! ### Cursors that an evaluation can come to -/

/-- The cursor stands on the first token, has moved on, or is behind an expression. -/
inductive Reachable (table : PrecedenceTable) (source : String) : Cursor → Prop
  | start : Reachable table source (Cursor.start table source)
  | advance {cursor : Cursor} (hCursor : Reachable table source cursor) :
      Reachable table source (cursor.advance table)
  | expression {V : Type} (interpretation : PureInterpretation V) (minimum : Nat)
      {cursor : Cursor} (hCursor : Reachable table source cursor) :
      Reachable table source
        (Id.run (cursor.expression interpretation table minimum)).2.val

variable {V : Type} (interpretation : PureInterpretation V)

theorem run_expression (table : PrecedenceTable) (minimum : Nat) (cursor : Cursor) :
    Id.run (cursor.expression interpretation table minimum) =
      (Id.run ((cursor.grouping table minimum).1.fold interpretation),
        (cursor.grouping table minimum).2) := by
  rw [expression_eq_fold]
  rfl

def stop (interpretation : PureInterpretation V) (table : PrecedenceTable)
    (source : String) : Cursor :=
  (Id.run ((start table source).expression interpretation table 1)).2.val

theorem stop_eq_grouping (table : PrecedenceTable) (source : String) :
    stop interpretation table source = ((start table source).grouping table 1).2.val := by
  rw [stop, run_expression]

theorem groups_start (table : PrecedenceTable) (source : String) :
    Groups table 1 (tokenize table source) ((start table source).grouping table 1).1
      ((start table source).grouping table 1).2.val := by
  rw [← upcoming_start]
  exact groups_grouping (isScanned_start table source) 1

/-- Whatever can be read from an expression up to its stop is what it groups. -/
theorem grouping_start_of_reads {source : String} {alternation : Alternation Token Operand}
    {rest : List Token} (hReads : alternation.Reads table 1 (tokenize table source) rest)
    (hStops : StopsAt table 1 rest) :
    ((start table source).grouping table 1).1.flatten = alternation.texts ∧
      ((start table source).grouping table 1).1.Follows table := by
  have groups := groups_start table source
  obtain ⟨found, hFound, hFlatten⟩ := groups.reads
  obtain ⟨rfl, _⟩ := hFound.unique groups.stops hReads hStops
  exact ⟨hFlatten, groups.follows⟩

theorem groups_stop (table : PrecedenceTable) (source : String) :
    Groups table 1 (tokenize table source) (Grouping.ofSource table source)
      (stop interpretation table source) := by
  rw [stop_eq_grouping]
  exact groups_start table source

theorem Reachable.scanned_and_suffix {source : String} {cursor : Cursor}
    (hReachable : cursor.Reachable table source) :
    cursor.IsScanned table ∧ cursor.upcoming table <:+ tokenize table source := by
  induction hReachable with
  | start =>
      rw [upcoming_start]
      exact ⟨isScanned_start table source, List.suffix_rfl⟩
  | advance _ ih =>
      exact ⟨isScanned_advance table _, (upcoming_advance_suffix ih.1).trans ih.2⟩
  | expression interpretation minimum _ ih =>
      rw [run_expression]
      have groups := groups_grouping ih.1 minimum
      obtain ⟨alternation, hReads, _⟩ := groups.reads
      exact ⟨groups.scanned, hReads.suffix.trans ih.2⟩

/-- What is read, in which order it is grouped, and where the cursor is behind it. -/
structure ReadsLongest {V : Type} (interpretation : PureInterpretation V)
    (table : PrecedenceTable) (minimum : Nat) (cursor : Cursor)
    (alternation : Alternation Token Operand) (grouping : Grouping) (value : V)
    (behind : Cursor) : Prop where
  reads : alternation.Reads table minimum (cursor.upcoming table) (behind.upcoming table)
  longest : ∀ (other : Alternation Token Operand) (rest : List Token),
    other.Reads table minimum (cursor.upcoming table) rest → other.IsBeginningOf alternation
  inView : (behind.upcoming table).head? = some behind.current
  flatten : grouping.flatten = alternation.texts
  follows : grouping.Follows table
  unique : ∀ other : Grouping, other.flatten = alternation.texts → other.Follows table →
    other = grouping
  value : value = Id.run (grouping.fold interpretation)

theorem readsLongest_expression {cursor : Cursor} (hScanned : cursor.IsScanned table)
    (minimum : Nat) :
    ∃ alternation grouping,
      ReadsLongest interpretation table minimum cursor alternation grouping
        (Id.run (cursor.expression interpretation table minimum)).1
        (Id.run (cursor.expression interpretation table minimum)).2.val := by
  have groups := groups_grouping hScanned minimum
  obtain ⟨alternation, hReads, hFlatten⟩ := groups.reads
  rw [run_expression]
  refine ⟨alternation, (cursor.grouping table minimum).1, hReads, ?_, head?_upcoming _ _,
    hFlatten, groups.follows, ?_, rfl⟩
  · intro other rest hOther
    exact hReads.beginning groups.stops hOther
  · intro other hOther otherFollows
    exact otherFollows.unique groups.follows (hOther.trans hFlatten.symm)

end Cursor

/-- From every cursor that it can come to, an evaluation reads the longest alternation in
the tokens ahead and folds the one grouping of it that follows the table.  A whole
expression is read from its first token on, with operators of every level. -/
theorem expression_reads_longest_alternation {V : Type}
    (interpretation : PureInterpretation V) (table : PrecedenceTable) (source : String)
    {cursor : Cursor} (hReachable : cursor.Reachable table source) (minimum : Nat) :
    cursor.upcoming table <:+ tokenize table source ∧
      (∃ alternation grouping,
        Cursor.ReadsLongest interpretation table minimum cursor alternation grouping
          (Id.run (cursor.expression interpretation table minimum)).1
          (Id.run (cursor.expression interpretation table minimum)).2.val) ∧
      (Cursor.start table source).upcoming table = tokenize table source ∧
      Id.run (evaluate interpretation table source) =
        (Id.run ((Cursor.start table source).expression interpretation table 1)).1 := by
  obtain ⟨scanned, suffix⟩ := hReachable.scanned_and_suffix
  exact ⟨suffix, Cursor.readsLongest_expression interpretation scanned minimum,
    Cursor.upcoming_start table source, rfl⟩

/-- The second operand on, up to an operator that is too low. -/
theorem expression_reads_longest_alternation_behind_operator :
    let table := PrecedenceTable.standard.enter "^" 4294967295
    let cursor := ((Cursor.start table "0 + 1 ^ -2 ^ 3 + 4").advance table).advance table
    cursor.Reachable table "0 + 1 ^ -2 ^ 3 + 4" ∧
      (∃ alternation grouping,
        Cursor.ReadsLongest Grouping.interpretation table 5 cursor alternation grouping
          (Id.run (cursor.expression Grouping.interpretation table 5)).1
          (Id.run (cursor.expression Grouping.interpretation table 5)).2.val) ∧
      (Id.run (cursor.expression Grouping.interpretation table 5)).1 =
        .application (.application (.operand "1") "^" (.operand "-2")) "^" (.operand "3") := by
  refine ⟨.advance (.advance .start), ?_, by decide +kernel⟩
  exact (expression_reads_longest_alternation Grouping.interpretation _ _
    (.advance (.advance .start)) 5).2.1

end OperatorCalculator
