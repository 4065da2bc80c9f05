import OperatorCalculator.Proofs.Token.Cuts
import OperatorCalculator.Token.Feed

/-
A feed agrees with the list of tokens.

What a feed replies is decided by the list of the tokens of the expression and by how
many of them were handed out.  The invariant of a feed says so of its scanner: the
tokens ahead are those of the list that were not handed out yet, and the scanner
stands behind the last one that was.
-/

set_option autoImplicit false

namespace OperatorCalculator
namespace Feed

open Text (byteLength slice?)

/-! ### Replies read off a list of tokens -/

/-- How many tokens were handed out, and how many when the place was saved.  The end of
input counts as often as it was handed out. -/
structure Place where
  given : Nat
  saved : Nat

def Place.start : Place := ⟨0, 0⟩

/-- Where the last of the tokens that were handed out stops. -/
def stopOf (tokens : List Token) (given : Nat) : Nat :=
  (tokens.take given).getLast?.elim 0 fun token => token.span.stop

def Place.answer (source : String) (tokens : List Token) (place : Place) :
    Step → Reply × Place
  | .nextToken =>
      (.token (tokens.getD place.given (Token.endAt source.utf8ByteSize)),
        { place with given := place.given + 1 })
  | .next => (.token? tokens.dropLast[place.given]?, { place with given := place.given + 1 })
  | .collect =>
      (.tokens (tokens.dropLast.drop place.given), { place with given := tokens.length })
  | .remainder =>
      (.remainder (slice? source.toList (stopOf tokens place.given) source.utf8ByteSize),
        place)
  | .isAtEnd => (.isAtEnd (stopOf tokens place.given == source.utf8ByteSize), place)
  | .save => (.done, { place with saved := place.given })
  | .restore => (.done, { place with given := place.saved })

/-! ### The tokens that are not the end of input -/

def inner (table : PrecedenceTable) (source : String) : List Token :=
  (tokenize table source).dropLast

theorem tokenize_eq_inner_append (table : PrecedenceTable) (source : String) :
    tokenize table source = inner table source ++ [Token.endAt source.utf8ByteSize] := by
  obtain ⟨front, hFront, _⟩ := (tokenize_partition table source).ended
  rw [inner, hFront, List.dropLast_concat]

theorem isEnd_eq_false_of_mem_inner {table : PrecedenceTable} {source : String}
    {token : Token} (member : token ∈ inner table source) : token.isEnd = false := by
  obtain ⟨front, hFront, hInner⟩ := (tokenize_partition table source).ended
  rw [inner, hFront, List.dropLast_concat] at member
  exact (hInner token member).1

theorem getD_tokenize (table : PrecedenceTable) (source : String) (given : Nat) :
    (tokenize table source).getD given (Token.endAt source.utf8ByteSize) =
      ((inner table source).drop given).headD (Token.endAt source.utf8ByteSize) := by
  rw [List.headD_eq_head?_getD, List.head?_drop, List.getD_eq_getElem?_getD,
    tokenize_eq_inner_append]
  rcases Nat.lt_trichotomy given (inner table source).length with before | last | behind
  · rw [List.getElem?_append_left before]
  · simp [last]
  · rw [List.getElem?_eq_none (by simp; omega), List.getElem?_eq_none (by omega)]

theorem stopOf_succ (table : PrecedenceTable) (source : String) (given : Nat) :
    stopOf (tokenize table source) (given + 1) =
      ((tokenize table source).getD given (Token.endAt source.utf8ByteSize)).span.stop := by
  have last : (tokenize table source).getLast? = some (Token.endAt source.utf8ByteSize) := by
    rw [tokenize_eq_inner_append, List.getLast?_concat]
  rw [stopOf, List.getLast?_take, if_neg (Nat.succ_ne_zero given), Nat.add_sub_cancel, last,
    List.getD_eq_getElem?_getD]
  cases (tokenize table source)[given]? with
  | none => rfl
  | some token => rfl

/-! ### The invariant of a scanner in a feed -/

/-- The scanner stands behind the first tokens of the expression. -/
structure Stands (table : PrecedenceTable) (source : String) (given : Nat)
    (scanner : Scanner) : Prop where
  ahead : (scanner.drain table).1 =
    (inner table source).drop given ++ [Token.endAt source.utf8ByteSize]
  offset : scanner.offset = stopOf (tokenize table source) given
  remaining : ∃ before, source.toList = before ++ scanner.remaining ∧
    byteLength before = scanner.offset

variable {table : PrecedenceTable} {source : String} {given : Nat} {scanner : Scanner}

theorem stands_start (table : PrecedenceTable) (source : String) :
    Stands table source 0 (.start source) :=
  ⟨tokenize_eq_inner_append table source, rfl, Scanner.standsIn_start source⟩

theorem next_of_drain {ahead : List Token} {last : Token}
    (hAhead : (scanner.drain table).1 = ahead ++ [last])
    (hInner : ∀ token ∈ ahead, token.isEnd = false) (hLast : last.isEnd = true) :
    (scanner.next table).1 = ahead.headD last ∧
      ((scanner.next table).2.drain table).1 = ahead.tail ++ [last] := by
  cases hEnd : (scanner.next table).1.isEnd with
  | true =>
      rw [Scanner.drain_of_isEnd hEnd] at hAhead
      cases ahead with
      | nil =>
          have same : (scanner.next table).1 = last := (List.cons.inj hAhead).1
          have again := scanner.next_next_of_isEnd table hEnd
          refine ⟨same, ?_⟩
          rw [Scanner.drain_of_isEnd (by rw [again, hEnd]), again, same]
          rfl
      | cons token rest => simp at hAhead
  | false =>
      rw [Scanner.drain_of_not_isEnd hEnd] at hAhead
      cases ahead with
      | nil =>
          have same : (scanner.next table).1 = last := (List.cons.inj hAhead).1
          rw [same, hLast] at hEnd
          contradiction
      | cons token rest => exact List.cons.inj hAhead

theorem Stands.next (hStands : Stands table source given scanner) :
    (scanner.next table).1 =
        (tokenize table source).getD given (Token.endAt source.utf8ByteSize) ∧
      Stands table source (given + 1) (scanner.next table).2 := by
  have inside : ∀ token ∈ (inner table source).drop given, token.isEnd = false :=
    fun token member => isEnd_eq_false_of_mem_inner (List.mem_of_mem_drop member)
  obtain ⟨hToken, hAhead⟩ := next_of_drain hStands.ahead inside rfl
  rw [← getD_tokenize] at hToken
  have standsIn : scanner.StandsIn source := hStands.remaining
  refine ⟨hToken, ?_, ?_, standsIn.next⟩
  · rw [hAhead, List.tail_drop]
  · rw [Scanner.offset_next, hToken, stopOf_succ]

theorem exists_stands (table : PrecedenceTable) (source : String) (given : Nat) :
    ∃ scanner, Stands table source given scanner := by
  induction given with
  | zero => exact ⟨_, stands_start table source⟩
  | succ given ih =>
      obtain ⟨scanner, hStands⟩ := ih
      exact ⟨_, hStands.next.2⟩

/-- Behind the last token it does not matter how often the end of input was handed out. -/
theorem Stands.past (hStands : Stands table source given scanner)
    (hGiven : (tokenize table source).length ≤ given) :
    Stands table source (tokenize table source).length scanner := by
  have length := congrArg List.length (tokenize_eq_inner_append table source)
  rw [List.length_append, List.length_singleton] at length
  refine ⟨?_, ?_, hStands.remaining⟩
  · rw [hStands.ahead, List.drop_eq_nil_of_le (by omega), List.drop_eq_nil_of_le (by omega)]
  · rw [hStands.offset, stopOf, stopOf, List.take_of_length_le hGiven, List.take_length]

theorem Stands.length_le_of_isEnd (hStands : Stands table source given scanner)
    (hEnd : (scanner.next table).1.isEnd = true) :
    (tokenize table source).length ≤ given + 1 := by
  have length := congrArg List.length (tokenize_eq_inner_append table source)
  rw [List.length_append, List.length_singleton] at length
  have ahead := congrArg List.length hStands.ahead
  rw [Scanner.drain_of_isEnd hEnd, List.length_append, List.length_singleton,
    List.length_singleton, List.length_drop] at ahead
  omega

theorem Stands.filter_drain (hStands : Stands table source given scanner) :
    (scanner.drain table).1.filter (!·.isEnd) = (inner table source).drop given := by
  have inside : ∀ token ∈ (inner table source).drop given, (!token.isEnd) = true := by
    intro token member
    rw [isEnd_eq_false_of_mem_inner (List.mem_of_mem_drop member)]
    rfl
  rw [hStands.ahead, List.filter_append, List.filter_eq_self.mpr inside]
  exact List.append_nil _

theorem Stands.behind_drain (hStands : Stands table source given scanner) :
    Stands table source (tokenize table source).length (scanner.drain table).2 := by
  induction scanner using Scanner.next_induction table generalizing given with
  | atEnd scanner hEnd =>
      rw [Scanner.behind_drain_of_isEnd hEnd]
      exact hStands.next.2.past (hStands.length_le_of_isEnd hEnd)
  | inFront scanner hToken ih =>
      rw [Scanner.behind_drain_of_not_isEnd hToken]
      exact ih hStands.next.2

theorem Stands.remaining_eq_slice (hStands : Stands table source given scanner) :
    slice? source.toList (stopOf (tokenize table source) given) source.utf8ByteSize =
      some scanner.remaining := by
  have standsIn : scanner.StandsIn source := hStands.remaining
  rw [← hStands.offset]
  exact standsIn.slice_remaining

theorem Stands.isAtEnd_eq (hStands : Stands table source given scanner) :
    scanner.isAtEnd =
      (stopOf (tokenize table source) given == source.utf8ByteSize) := by
  have standsIn : scanner.StandsIn source := hStands.remaining
  rw [Scanner.isAtEnd, standsIn.size_eq, ← hStands.offset]
  cases hRemaining : scanner.remaining with
  | nil => simp
  | cons character rest =>
      have wide := character.utf8Size_pos
      rw [Text.byteLength_cons, List.isEmpty_cons, eq_comm, beq_eq_false_iff_ne]
      omega

/-! ### The same replies -/

structure Matches (table : PrecedenceTable) (source : String) (feed : Feed)
    (place : Place) : Prop where
  scanner : Stands table source place.given feed.scanner
  saved : Stands table source place.saved feed.saved

theorem matches_start (table : PrecedenceTable) (source : String) :
    Matches table source (start source) Place.start :=
  ⟨stands_start table source, stands_start table source⟩

theorem next_eq_getElem? (table : PrecedenceTable) (source : String) (given : Nat) :
    (if ((tokenize table source).getD given (Token.endAt source.utf8ByteSize)).isEnd then none
      else some ((tokenize table source).getD given (Token.endAt source.utf8ByteSize))) =
      (inner table source)[given]? := by
  rw [getD_tokenize, List.headD_eq_head?_getD, List.head?_drop]
  cases hToken : (inner table source)[given]? with
  | none => rfl
  | some token =>
      have noEnd := isEnd_eq_false_of_mem_inner (List.mem_of_getElem? hToken)
      simp [noEnd]

theorem Matches.answer {feed : Feed} {place : Place}
    (hMatches : Matches table source feed place) (step : Step) :
    (feed.answer table step).1 = (place.answer source (tokenize table source) step).1 ∧
      Matches table source (feed.answer table step).2
        (place.answer source (tokenize table source) step).2 := by
  obtain ⟨hToken, hNext⟩ := hMatches.scanner.next
  cases step with
  | nextToken => exact ⟨congrArg Reply.token hToken, hNext, hMatches.saved⟩
  | next =>
      refine ⟨?_, hNext, hMatches.saved⟩
      simp only [Feed.answer, Place.answer, hToken, next_eq_getElem?]
      rfl
  | collect =>
      exact ⟨congrArg Reply.tokens hMatches.scanner.filter_drain,
        hMatches.scanner.behind_drain, hMatches.saved⟩
  | remainder =>
      exact ⟨congrArg Reply.remainder hMatches.scanner.remaining_eq_slice.symm, hMatches⟩
  | isAtEnd => exact ⟨congrArg Reply.isAtEnd hMatches.scanner.isAtEnd_eq, hMatches⟩
  | save => exact ⟨rfl, hMatches.scanner, hMatches.scanner⟩
  | restore => exact ⟨rfl, hMatches.saved, hMatches.saved⟩

theorem Matches.replies {feed : Feed} {place : Place}
    (hMatches : Matches table source feed place) (steps : List Step) :
    Feed.replies (Feed.answer table) feed steps =
      Feed.replies (Place.answer source (tokenize table source)) place steps := by
  induction steps generalizing feed place with
  | nil => rfl
  | cons step steps ih =>
      obtain ⟨same, after⟩ := hMatches.answer step
      exact List.cons_eq_cons.mpr ⟨same, ih after⟩

end Feed

/-- The tokens of an expression cut it without loss, and a feed hands out just these tokens,
whatever it is asked for and wherever it goes back to. -/
theorem tokenize_partition_and_feed_replies (table : PrecedenceTable) (source : String) :
    Partition source (tokenize table source) ∧
      ∀ steps : List Feed.Step,
        Feed.replies (Feed.answer table) (Feed.start source) steps =
          Feed.replies (Feed.Place.answer source (tokenize table source)) Feed.Place.start
            steps :=
  ⟨tokenize_partition table source, (Feed.matches_start table source).replies⟩

end OperatorCalculator
