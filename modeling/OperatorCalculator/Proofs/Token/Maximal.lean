import OperatorCalculator.Proofs.Token.Neighbours

/-
Words and operators go on for as long as they can.

A word takes every character of a word that it touches, on either side.  An operator begins a
run of symbols, which may have been cut in front of it, and takes the longest beginning of
what is left that the table knows, or all of that.
-/

set_option autoImplicit false

namespace OperatorCalculator

open Text (byteLength)

/-! ### Runs of a class of characters -/

/-- In an expression there stand between `front` and `back`, from an offset on, characters of
one class, as many as follow one another. -/
structure RunsFrom (kind : Char → Bool) (source : String) (start : Nat)
    (front run back : List Char) : Prop where
  split : source.toList = front ++ (run ++ back)
  offset : byteLength front = start
  nonempty : run ≠ []
  inside : run.all kind = true
  ends : back.head?.any kind = false

theorem Munches.head?_any {table : PrecedenceTable} {run taken rest : List Char}
    {kind : Char → Bool} (hMunches : Munches table run taken) (hRun : run ≠ [])
    (hKind : run.all kind = true) : (taken ++ rest).head?.any kind = true := by
  cases taken with
  | nil => exact absurd rfl (hMunches.ne_nil hRun)
  | cons first taken =>
      exact List.all_eq_true.mp (hMunches.all hKind) first List.mem_cons_self

namespace Token

variable {table : PrecedenceTable} {source : String} {token other : Token}
variable {front rest : List Char}

theorem LiesBetween.runsFrom_word (lies : token.LiesBetween table source front rest)
    (hWord : token.kind = .word) :
    RunsFrom isWordCharacter source token.span.start front token.text.toList rest ∧
      front.getLast?.any isWordCharacter = false := by
  have hTakes := lies.takes
  rw [hWord] at hTakes
  rcases hTakes.of_word with ⟨hSome, hAll, hRest⟩
  refine ⟨⟨lies.split, ?_, hSome, hAll, hRest⟩, ?_⟩
  · rw [lies.span]
  · rcases lies.apart with left | right
    · exact left
    · cases hText : token.text.toList with
      | nil => exact absurd hText hSome
      | cons first text =>
          rw [hText] at hAll right
          have word := List.all_eq_true.mp hAll first List.mem_cons_self
          exact absurd word (Bool.eq_false_iff.mp right)

theorem LiesBetween.runsFrom_operator (lies : token.LiesBetween table source front rest)
    (hOperator : token.kind = .operator) :
    ∃ run back, RunsFrom isSymbol source token.span.start front run back ∧
      token.text.toList ++ rest = run ++ back ∧ Munches table run token.text.toList := by
  have hTakes := lies.takes
  have hSome := hTakes.ne_nil
  have hHead : (token.text.toList ++ rest).head?.any isGap = false := by
    rw [List.head?_append_of_ne_nil _ hSome]
    exact lies.noGap
  rw [hOperator] at hTakes
  rcases hTakes.of_operator hHead with ⟨run, back, hSplit, hRun, hBack, hMunches⟩
  refine ⟨run, back, ⟨?_, ?_, ?_, hRun, hBack⟩, hSplit, hMunches⟩
  · rw [← hSplit]
    exact lies.split
  · rw [lies.span]
  · intro nothing
    rw [nothing] at hMunches
    exact hSome (List.prefix_nil.mp hMunches.isPrefix)

/-- Of a run that holds no operator at its front, nothing is left for another token. -/
theorem LiesBetween.not_touches (lies : token.LiesBetween table source front rest)
    (hOperator : token.kind = .operator) (hUnknown : table.contains token.text = false)
    {otherFront otherRest : List Char}
    (otherLies : other.LiesBetween table source otherFront otherRest)
    (hOther : other.kind = .operator) : other.span.start ≠ token.span.stop := by
  intro hTouches
  rcases lies.runsFrom_operator hOperator with ⟨run, back, hRuns, hSplit, hMunches⟩
  rcases otherLies.runsFrom_operator hOther with
    ⟨otherRun, otherBack, hOtherRuns, _, hOtherMunches⟩
  have all : token.text.toList = run := by
    cases hMunches with
    | known _ _ hKnown _ =>
        rw [String.ofList_toList, hUnknown] at hKnown
        contradiction
    | unknown _ => rfl
  rw [lies.span, otherLies.span] at hTouches
  have behind := lies.split.symm.trans otherLies.split
  rw [← List.append_assoc] at behind
  have same := (Text.append_inj_of_byteLength_eq behind
    ((Text.byteLength_append _ _).trans hTouches.symm)).2
  have ends := hRuns.ends
  rw [all] at hSplit
  rw [← List.append_cancel_left hSplit, same,
    hOtherMunches.head?_any hOtherRuns.nonempty hOtherRuns.inside] at ends
  contradiction

end Token

/-- A word has no character of a word on its left or on its right.  Of the run of symbols that
starts where an operator does, the operator is the longest beginning that the table knows, or
all if there is none, and then no other operator starts where it stops. -/
theorem words_and_operators_are_munched_maximally {table : PrecedenceTable} {source : String}
    {token : Token} (hToken : token ∈ tokenize table source) :
    (token.kind = .word → ∃ front back,
      RunsFrom isWordCharacter source token.span.start front token.text.toList back ∧
        front.getLast?.any isWordCharacter = false) ∧
      (token.kind = .operator → ∃ front run back,
        RunsFrom isSymbol source token.span.start front run back ∧
          Munches table run token.text.toList) ∧
      (token.kind = .operator → table.contains token.text = false →
        ∀ other ∈ tokenize table source, other.kind = .operator →
          other.span.start ≠ token.span.stop) := by
  refine ⟨?_, ?_, ?_⟩
  · intro hWord
    have hEnd := Token.isEnd_eq_false_of_kind hWord TokenKind.noConfusion
    rcases Token.exists_liesBetween hToken hEnd with ⟨_, front, rest, _, lies⟩
    exact ⟨front, rest, lies.runsFrom_word hWord⟩
  · intro hOperator
    have hEnd := Token.isEnd_eq_false_of_kind hOperator TokenKind.noConfusion
    rcases Token.exists_liesBetween hToken hEnd with ⟨_, front, rest, _, lies⟩
    rcases lies.runsFrom_operator hOperator with ⟨run, back, hRuns, _, hMunches⟩
    exact ⟨front, run, back, hRuns, hMunches⟩
  · intro hOperator hUnknown other hMember hOther
    have hEnd := Token.isEnd_eq_false_of_kind hOperator TokenKind.noConfusion
    have hOtherEnd := Token.isEnd_eq_false_of_kind hOther TokenKind.noConfusion
    rcases Token.exists_liesBetween hToken hEnd with ⟨_, front, rest, _, lies⟩
    rcases Token.exists_liesBetween hMember hOtherEnd with ⟨_, otherFront, _, _, otherLies⟩
    exact lies.not_touches hOperator hUnknown otherLies hOther

/-- A word between symbols, an operator that is cut off a run, and what is left of that run. -/
theorem words_and_operators_are_munched_maximally_in_cut_run :
    let table := PrecedenceTable.standard.enter "<-" 2
    let source := "na<--ïve"
    let word : Token := ⟨.word, "ve", ⟨7, 9⟩⟩
    let known : Token := ⟨.operator, "<-", ⟨2, 4⟩⟩
    let unknown : Token := ⟨.operator, "ï", ⟨5, 7⟩⟩
    (word ∈ tokenize table source ∧ known ∈ tokenize table source ∧
        unknown ∈ tokenize table source ∧ table.contains "ï" = false) ∧
      (∃ front back, RunsFrom isWordCharacter source 7 front word.text.toList back ∧
        front.getLast?.any isWordCharacter = false) ∧
      (∃ front run back, RunsFrom isSymbol source 2 front run back ∧
        Munches table run known.text.toList) ∧
      ∀ other ∈ tokenize table source, other.kind = .operator → other.span.start ≠ 7 := by
  intro table source word known unknown
  have wordMember : word ∈ tokenize table source := by decide +kernel
  have knownMember : known ∈ tokenize table source := by decide +kernel
  have unknownMember : unknown ∈ tokenize table source := by decide +kernel
  have hUnknown : table.contains "ï" = false := by decide +kernel
  refine ⟨⟨wordMember, knownMember, unknownMember, hUnknown⟩, ?_, ?_, ?_⟩
  · exact (words_and_operators_are_munched_maximally wordMember).1 rfl
  · exact (words_and_operators_are_munched_maximally knownMember).2.1 rfl
  · exact (words_and_operators_are_munched_maximally unknownMember).2.2 rfl hUnknown

end OperatorCalculator
