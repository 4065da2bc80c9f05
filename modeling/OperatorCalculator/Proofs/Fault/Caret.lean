import OperatorCalculator.Proofs.Sliced.Answer
import OperatorCalculator.Proofs.Token.Neighbours

/-
Where the caret stands.

A report ends in two lines, one that shows the line of the fault and one that holds the caret.
Both have the number of the line or as much room in front, so the caret stands below the first
character of the token at fault, or behind the line that is shown if the expression has ended.
-/

set_option autoImplicit false

namespace OperatorCalculator

open Text (byteLength endsLine lineText openLine restOfLine)

/-! ### What is left of a line -/

namespace Text

theorem newline_not_mem_lineText {line : List Char} (hLine : '\n' ∉ line.dropLast) :
    '\n' ∉ lineText line := by
  rcases List.eq_nil_or_concat' line with rfl | ⟨front, last, rfl⟩
  · exact List.not_mem_nil
  · rw [List.dropLast_concat] at hLine
    change '\n' ∉ (front ++ [last]).rdropWhile endsLine
    by_cases hLast : endsLine last = true
    · rw [List.rdropWhile_concat_pos _ _ _ hLast]
      exact fun member => hLine ((List.rdropWhile_prefix endsLine front).subset member)
    · rw [List.rdropWhile_concat_neg _ _ _ hLast]
      intro member
      rcases List.mem_append.mp member with inFront | atEnd
      · exact hLine inFront
      · rw [← List.mem_singleton.mp atEnd] at hLast
        contradiction

/-- A beginning of a line is kept if its last character is. -/
theorem isPrefix_lineText {short line : List Char} (hShort : short <+: line)
    (hLast : short.getLast?.any endsLine = false) : short <+: lineText line := by
  have whole : lineText line ++ line.rtakeWhile endsLine = line :=
    List.rdropWhile_append_rtakeWhile
  have kept : lineText line <+: line := ⟨_, whole⟩
  rcases List.prefix_or_prefix_of_prefix hShort kept with inside | ⟨more, rfl⟩
  · exact inside
  · have inLine : lineText line ++ more <+: lineText line ++ line.rtakeWhile endsLine := by
      rw [whole]
      exact hShort
    have dropped := (List.prefix_append_right_inj (lineText line)).mp inLine
    rcases List.eq_nil_or_concat' more with rfl | ⟨front, last, rfl⟩
    · exact ⟨[], by rw [List.append_nil, List.append_nil]⟩
    · have ends := List.mem_rtakeWhile_imp (dropped.subset List.mem_concat_self)
      rw [← List.append_assoc, List.getLast?_concat, Option.any_some, ends] at hLast
      contradiction

/-- The first line of a text without the carriage returns at its end. -/
def firstLine (characters : List Char) : List Char :=
  (characters.takeWhile (· != '\n')).rdropWhile (· == '\r')

theorem exists_firstLine_cons {first : Char} (hFirst : isGap first = false) (rest : List Char) :
    ∃ more, firstLine (first :: rest) = first :: more := by
  have noNewline : (first != '\n') = true := by
    rw [bne_iff_ne]
    rintro rfl
    contradiction
  unfold firstLine
  rw [List.takeWhile_cons, noNewline, if_pos rfl]
  rcases List.prefix_cons_iff.mp (List.rdropWhile_prefix (· == '\r')
    (first :: rest.takeWhile (· != '\n'))) with nothing | ⟨more, hMore, _⟩
  · have carriageReturn := List.rdropWhile_eq_nil_iff.mp nothing first List.mem_cons_self
    rw [beq_iff_eq] at carriageReturn
    subst carriageReturn
    contradiction
  · exact ⟨more, hMore⟩

theorem getLast?_firstLine (characters : List Char) :
    (firstLine characters).getLast?.any endsLine = false := by
  by_cases hNothing : firstLine characters = []
  · rw [hNothing]
    rfl
  · have noReturn := List.rdropWhile_last_not (· == '\r') _ hNothing
    have member := (List.rdropWhile_prefix (· == '\r') _).subset (List.getLast_mem hNothing)
    have noNewline := List.mem_takeWhile_imp member
    rw [List.getLast?_eq_some_getLast hNothing, Option.any_some]
    unfold endsLine
    rw [bne_iff_ne] at noNewline
    rw [Bool.or_eq_false_iff, beq_eq_false_iff_ne, ← Bool.not_eq_true]
    exact ⟨noNewline, noReturn⟩

end Text

/-! ### The lines of a report -/

/-- The two lines at the end of a report. -/
structure ClosesWith (report : String) (shown pointer : List Char) : Prop where
  split : ∃ opening, report.toList = opening ++ '\n' :: (shown ++ '\n' :: pointer)
  shown : '\n' ∉ shown
  pointer : '\n' ∉ pointer

/-- The number of the line and the bar behind it. -/
def Text.Location.numbering (location : Text.Location) : List Char :=
  (toString location.line).toList ++ [' ', '|', ' ']

/-- What stands in front of the caret. -/
def Text.Location.indent (location : Text.Location) : List Char :=
  padLeft ((toString location.line).length + 2) ['|'] ++ ' ' :: List.replicate location.column ' '

theorem Text.Location.length_indent (location : Text.Location) :
    location.indent.length = location.numbering.length + location.column := by
  unfold indent numbering padLeft
  simp only [List.length_append, List.length_replicate, List.length_cons, List.length_nil,
    String.length_toList]
  omega

theorem Text.Location.not_mem_indent (location : Text.Location) {character : Char}
    (hSpace : character ≠ ' ') (hBar : character ≠ '|') : character ∉ location.indent := by
  unfold indent padLeft
  simp only [List.mem_append, List.mem_cons, List.mem_replicate, List.not_mem_nil, or_false, not_or]
  tauto

theorem Text.Location.newline_not_mem_numbering (location : Text.Location) :
    '\n' ∉ location.numbering := by
  unfold numbering
  intro member
  rcases List.mem_append.mp member with inNumber | behind
  · have digit := Text.isDigit_of_mem_repr inNumber
    contradiction
  · revert behind
    decide

/-- The line that is shown has its number in front, and the caret has as much room there. -/
theorem Cause.closesWith_reportLines (cause : Cause) {location : Text.Location}
    (hText : '\n' ∉ location.text) :
    ClosesWith ("\n".intercalate (cause.reportLines location))
      (location.numbering ++ location.text) (location.indent ++ ['^']) := by
  refine ⟨⟨(cause.heading ++ "\n" ++
    String.ofList (padLeft ((toString location.line).length + 2) ['|'])).toList, ?_⟩, ?_, ?_⟩
  · simp [reportLines, Text.Location.numbering, Text.Location.indent, padLeft,
      String.intercalate_cons_cons]
  · rw [List.mem_append, not_or]
    exact ⟨location.newline_not_mem_numbering, hText⟩
  · intro member
    rcases List.mem_append.mp member with inIndent | atEnd
    · exact location.not_mem_indent (by decide) (by decide) inIndent
    · exact absurd (List.mem_singleton.mp atEnd) (by decide)

/-! ### The line of a token -/

theorem Token.LiesBetween.exists_firstLine {table : PrecedenceTable} {source : String}
    {token : Token} {front rest : List Char} (hLies : token.LiesBetween table source front rest) :
    ∃ first others, token.text.toList.head? = some first ∧
      Text.firstLine token.text.toList = first :: others := by
  have noGap := hLies.noGap
  cases hText : token.text.toList with
  | nil => exact absurd hText hLies.takes.ne_nil
  | cons first behind =>
      rw [hText, List.head?_cons, Option.any_some] at noGap
      rcases Text.exists_firstLine_cons noGap behind with ⟨others, hOthers⟩
      exact ⟨first, others, rfl, hOthers⟩

/-- The line of a token is shown at least up to the end of its first line. -/
theorem Token.LiesBetween.exists_location {table : PrecedenceTable} {source : String}
    {token : Token} {front rest : List Char} (hLies : token.LiesBetween table source front rest) :
    ∃ location, Text.locate? source.toList token.span.start = some location ∧
      '\n' ∉ location.text ∧ location.column = (openLine front).length ∧
      openLine front ++ Text.firstLine token.text.toList <+: location.text := by
  have more := List.append_ne_nil_of_left_ne_nil hLies.takes.ne_nil rest
  rw [hLies.split, hLies.span]
  refine ⟨_, Text.locate?_append front more, ?_, rfl, ?_⟩
  · apply Text.newline_not_mem_lineText
    intro member
    rcases List.mem_append.mp (List.dropLast_subset _ member) with inFront | behind
    · exact Text.newline_not_mem_openLine front inFront
    · exact Text.newline_not_mem_restOfLine _ behind
  · rcases hLies.exists_firstLine with ⟨first, others, _, hFirst⟩
    have inLine := Lexeme.takeWhile_isPrefix (· != '\n') (List.prefix_append token.text.toList rest)
    apply Text.isPrefix_lineText
    · apply (List.prefix_append_right_inj (openLine front)).mpr
      exact (List.rdropWhile_prefix _ _).trans inLine
    · rw [List.getLast?_append_of_ne_nil]
      · exact Text.getLast?_firstLine _
      · rw [hFirst]
        exact List.cons_ne_nil first others

theorem exists_location_of_end (source : String) :
    ∃ location, Text.locate? source.toList source.utf8ByteSize = some location ∧
      '\n' ∉ location.text ∧ location.column = location.text.length := by
  rcases Text.exists_locateFrom?_eq_end 1 source.toList with ⟨ended, last, hEnds, hPast⟩
  rw [← Text.byteLength_toList]
  exact ⟨_, hPast _ (Nat.le_refl _), Text.newline_not_mem_lineText hEnds.newline, rfl⟩

/-- A place in a line that is shown is where a token begins, or behind all of it for the end of
input. -/
structure PointsAt (shown : List Char) (index : Nat) (token : Token) : Prop where
  first : token.isEnd = false →
    ∃ first, token.text.toList.head? = some first ∧ shown[index]? = some first
  goesOn : token.isEnd = false → Text.firstLine token.text.toList <+: shown.drop index
  ended : token.isEnd = true → index = shown.length

theorem PointsAt.of_isEnd {shown : List Char} {token : Token} (hEnd : token.isEnd = true) :
    PointsAt shown shown.length token := by
  refine ⟨fun hToken => ?_, fun hToken => ?_, fun _ => rfl⟩
  all_goals
    rw [hEnd] at hToken
    contradiction

theorem exists_pointsAt {table : PrecedenceTable} {source : String} {token : Token}
    (member : token ∈ tokenize table source) :
    ∃ location, Text.locate? source.toList token.span.start = some location ∧
      '\n' ∉ location.text ∧
      PointsAt (location.numbering ++ location.text) location.indent.length token := by
  cases hEnd : token.isEnd with
  | true =>
      rcases exists_location_of_end source with ⟨location, hLocation, hText, hColumn⟩
      have atEnd : token.span.start = source.utf8ByteSize := by
        rw [eq_endAt_of_isEnd member hEnd]
        rfl
      rw [← atEnd] at hLocation
      refine ⟨location, hLocation, hText, ?_⟩
      rw [location.length_indent, hColumn, ← List.length_append]
      exact .of_isEnd hEnd
  | false =>
      rcases Token.exists_liesBetween member hEnd with ⟨_, front, rest, _, hLies⟩
      rcases hLies.exists_location with ⟨location, hLocation, hText, hColumn, behind, hShown⟩
      rcases hLies.exists_firstLine with ⟨first, others, hHead, hFirst⟩
      have below : (location.numbering ++ location.text).drop location.indent.length =
          Text.firstLine token.text.toList ++ behind := by
        rw [location.length_indent, List.drop_length_add_append, hColumn, ← hShown,
          List.append_assoc, List.drop_left]
      refine ⟨location, hLocation, hText, ?_, ?_, ?_⟩
      · intro _
        refine ⟨first, hHead, ?_⟩
        rw [← List.head?_drop, below, hFirst]
        rfl
      · intro _
        rw [below]
        exact List.prefix_append _ _
      · intro ended
        rw [hEnd] at ended
        contradiction

/-- A report ends in a line of the expression and a line with a caret.  The caret stands below
the first character of the token at fault, which goes on behind it up to the end of its first
line, or behind all that is shown if the expression has ended. -/
theorem caret_stands_below_token {table : PrecedenceTable} {source : String} {fault : Fault}
    (hFault : shapeFault? table source = some fault) :
    ∃ report token shown indent,
      fault.report? source = some report ∧
      (token ∈ tokenize table source ∧ fault.position = token.span.start ∧
        fault.cause.found = token.text) ∧
      (ClosesWith report shown (indent ++ ['^']) ∧ '^' ∉ indent) ∧
      PointsAt shown indent.length token := by
  rcases exists_token_of_shapeFault? hFault with ⟨token, member, position, hFound⟩
  rcases exists_pointsAt member with ⟨location, hLocation, hText, points⟩
  have noCaret : '^' ∉ location.indent := location.not_mem_indent (by decide) (by decide)
  refine ⟨"\n".intercalate (fault.cause.reportLines location), token,
    location.numbering ++ location.text, location.indent, ?_, ⟨member, position, hFound⟩,
    ⟨fault.cause.closesWith_reportLines hText, noCaret⟩, points⟩
  rw [Fault.report?, position, hLocation]
  rfl

/-- On the tenth line, at a quoted text of two lines. -/
theorem caret_stands_below_quoted_on_tenth_line :
    let source := "\n\n\n\n\n\n\n\n\n→ \"é\r\nb\""
    let fault : Fault := ⟨.trailingInput "\"é\r\nb\"", 13⟩
    shapeFault? .standard source = some fault ∧
      ∃ report token shown indent,
        fault.report? source = some report ∧
        (token ∈ tokenize .standard source ∧ fault.position = token.span.start ∧
          fault.cause.found = token.text) ∧
        (ClosesWith report shown (indent ++ ['^']) ∧ '^' ∉ indent) ∧
        PointsAt shown indent.length token := by
  intro source fault
  have hFault : shapeFault? .standard source = some fault := by
    decide +kernel
  exact ⟨hFault, caret_stands_below_token hFault⟩

end OperatorCalculator
