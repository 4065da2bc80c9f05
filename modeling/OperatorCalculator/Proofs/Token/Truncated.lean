import OperatorCalculator.Proofs.Token.Lexeme

/-
Scanning the beginning of an expression.

A lexeme is decided by its own characters and by what keeps it from going on.  Text that is
taken away behind it can only keep it from going on, so the lexeme stays the same.  Hence an
expression that is cut off at the start of a token, or further behind, still begins with the
tokens in front of that one.
-/

set_option autoImplicit false

namespace OperatorCalculator

open Text (byteLength)

/-! ### The longest known operator -/

/-- What is cut off a run of symbols: its longest beginning that is an operator, or all of it
if none is. -/
inductive Munches (table : PrecedenceTable) (run : List Char) : List Char → Prop
  | known {taken : List Char} (hSome : taken ≠ []) (hTaken : taken <+: run)
      (hKnown : table.contains (String.ofList taken) = true)
      (hLongest : ∀ longer, longer <+: run → taken.length < longer.length →
        table.contains (String.ofList longer) = false) : Munches table run taken
  | unknown (hUnknown : ∀ front, front ≠ [] → front <+: run →
      table.contains (String.ofList front) = false) : Munches table run run

/-- The lookups of a search that has come behind `seen`. -/
theorem longestOperatorFrom_cases (table : PrecedenceTable) (seen : String) (count : Nat)
    (longest : Option Nat) (run : List Char) :
    (longestOperatorFrom table seen count longest run = longest ∧
      ∀ front, front ≠ [] → front <+: run →
        table.contains (seen ++ String.ofList front) = false) ∨
    ∃ taken, taken ≠ [] ∧ taken <+: run ∧
      longestOperatorFrom table seen count longest run = some (count + taken.length) ∧
      table.contains (seen ++ String.ofList taken) = true ∧
      ∀ longer, longer <+: run → taken.length < longer.length →
        table.contains (seen ++ String.ofList longer) = false := by
  induction run generalizing seen count longest with
  | nil =>
      refine Or.inl ⟨rfl, ?_⟩
      intro front hSome hFront
      exact absurd (List.prefix_nil.mp hFront) hSome
  | cons symbol run ih =>
      rw [longestOperatorFrom]
      rcases ih (seen.push symbol) (count + 1)
          (if table.contains (seen.push symbol) then some (count + 1) else longest) with
        ⟨same, unknown⟩ | ⟨taken, hSome, hTaken, hLength, hKnown, hLongest⟩
      · cases hSymbol : table.contains (seen.push symbol) with
        | true =>
            refine Or.inr ⟨[symbol], List.cons_ne_nil symbol [],
              List.cons_prefix_cons.mpr ⟨rfl, List.nil_prefix⟩, ?_, ?_, ?_⟩
            · rw [hSymbol] at same
              exact same
            · rwa [append_ofList_cons, String.ofList_nil, String.append_empty]
            · intro longer hLonger longerThan
              rcases List.prefix_cons_iff.mp hLonger with rfl | ⟨front, rfl, hFront⟩
              · contradiction
              · rw [append_ofList_cons]
                apply unknown front _ hFront
                rintro rfl
                exact Nat.lt_irrefl _ longerThan
        | false =>
            refine Or.inl ⟨?_, ?_⟩
            · rw [hSymbol] at same
              exact same
            · intro front hSome hFront
              rcases List.prefix_cons_iff.mp hFront with rfl | ⟨behind, rfl, hBehind⟩
              · contradiction
              · rw [append_ofList_cons]
                cases behind with
                | nil => rwa [String.ofList_nil, String.append_empty]
                | cons next behind => exact unknown _ (List.cons_ne_nil next behind) hBehind
      · refine Or.inr ⟨symbol :: taken, List.cons_ne_nil symbol taken,
          List.cons_prefix_cons.mpr ⟨rfl, hTaken⟩, ?_, ?_, ?_⟩
        · rw [hLength, List.length_cons, Nat.add_assoc, Nat.add_comm 1]
        · rwa [append_ofList_cons]
        · intro longer hLonger longerThan
          rcases List.prefix_cons_iff.mp hLonger with rfl | ⟨front, rfl, hFront⟩
          · contradiction
          · rw [append_ofList_cons]
            exact hLongest front hFront (Nat.lt_of_succ_lt_succ longerThan)

namespace Munches

variable {table : PrecedenceTable} {run taken : List Char}

theorem of_operatorLength (table : PrecedenceTable) (run : List Char) :
    ∃ taken, Munches table run taken ∧ operatorLength table run = taken.length := by
  rw [operatorLength]
  rcases longestOperatorFrom_cases table "" 0 none run with
    ⟨same, unknown⟩ | ⟨taken, hSome, hTaken, hLength, hKnown, hLongest⟩
  · refine ⟨run, .unknown ?_, by rw [same]; rfl⟩
    simpa only [String.empty_append] using unknown
  · rw [String.empty_append] at hKnown
    refine ⟨taken, .known hSome hTaken hKnown ?_, by rw [hLength]; simp⟩
    simpa only [String.empty_append] using hLongest

theorem unique {other : List Char} (hMunches : Munches table run taken)
    (hOther : Munches table run other) : taken = other := by
  cases hMunches with
  | known hSome hTaken hKnown hLongest =>
      cases hOther with
      | known _ hOtherTaken hOtherKnown hOtherLongest =>
          rcases Nat.lt_trichotomy taken.length other.length with shorter | same | longer
          · rw [hLongest other hOtherTaken shorter] at hOtherKnown
            contradiction
          · have inside := List.prefix_of_prefix_length_le hTaken hOtherTaken (Nat.le_of_eq same)
            exact inside.eq_of_length same
          · rw [hOtherLongest taken hTaken longer] at hKnown
            contradiction
      | unknown hUnknown =>
          rw [hUnknown taken hSome hTaken] at hKnown
          contradiction
  | unknown hUnknown =>
      cases hOther with
      | known hSome hTaken hKnown _ =>
          rw [hUnknown other hSome hTaken] at hKnown
          contradiction
      | unknown _ => rfl

theorem operatorLength_eq (hMunches : Munches table run taken) :
    operatorLength table run = taken.length := by
  rcases of_operatorLength table run with ⟨found, hFound, hLength⟩
  rw [hLength, hMunches.unique hFound]

theorem isPrefix (hMunches : Munches table run taken) : taken <+: run := by
  cases hMunches with
  | known _ hTaken _ _ => exact hTaken
  | unknown _ => exact List.prefix_rfl

theorem ne_nil (hMunches : Munches table run taken) (hRun : run ≠ []) : taken ≠ [] := by
  cases hMunches with
  | known hSome _ _ _ => exact hSome
  | unknown _ => exact hRun

theorem all {kind : Char → Bool} (hMunches : Munches table run taken)
    (hRun : run.all kind = true) : taken.all kind = true := by
  rw [List.all_eq_true] at hRun ⊢
  intro symbol member
  exact hRun symbol (hMunches.isPrefix.subset member)

theorem truncate {short : List Char} (hMunches : Munches table run taken)
    (hTaken : taken <+: short) (hShort : short <+: run) : Munches table short taken := by
  cases hMunches with
  | known hSome _ hKnown hLongest =>
      exact .known hSome hTaken hKnown
        (fun longer hLonger => hLongest longer (hLonger.trans hShort))
  | unknown hUnknown =>
      have same : run = short := hTaken.eq_of_length_le hShort.length_le
      rw [← same]
      exact .unknown hUnknown

/-- A run that holds no operator at its front holds none if it is cut off. -/
theorem inside {short : List Char} (hMunches : Munches table run taken)
    (hUnknown : table.contains (String.ofList taken) = false) (hShort : short <+: taken) :
    Munches table short short := by
  cases hMunches with
  | known _ _ hKnown _ =>
      rw [hUnknown] at hKnown
      contradiction
  | unknown hNone =>
      exact .unknown (fun front hSome hFront => hNone front hSome (hFront.trans hShort))

end Munches

/-! ### The quote that closes a text -/

theorem splitQuoted_cons {character : Char} (hQuote : character ≠ '"')
    (hBackslash : character ≠ '\\') (rest : List Char) :
    splitQuoted (character :: rest) =
      (character :: (splitQuoted rest).1, (splitQuoted rest).2) := by
  rw [splitQuoted]
  · exact hQuote
  · intro impossible
    contradiction
  · intro hidden behind impossible
    contradiction

namespace Inert

variable {body : List Char}

theorem splitQuoted_of_prefix (hBody : Inert body) {short : List Char} (hShort : short <+: body) :
    splitQuoted short = (short, []) := by
  induction hBody generalizing short with
  | nil =>
      rw [List.prefix_nil.mp hShort]
      rfl
  | hidden character _ ih =>
      rcases List.prefix_cons_iff.mp hShort with rfl | ⟨others, rfl, hOthers⟩
      · rfl
      · rcases List.prefix_cons_iff.mp hOthers with rfl | ⟨behind, rfl, hBehind⟩
        · rfl
        · rw [splitQuoted, ih hBehind]
  | plain hQuote hBackslash _ ih =>
      rcases List.prefix_cons_iff.mp hShort with rfl | ⟨behind, rfl, hBehind⟩
      · rfl
      · rw [splitQuoted_cons hQuote hBackslash, ih hBehind]

theorem splitQuoted_backslash (hBody : Inert body) :
    splitQuoted (body ++ ['\\']) = (body ++ ['\\'], []) := by
  induction hBody with
  | nil => rfl
  | hidden character _ ih =>
      simp only [List.cons_append]
      rw [splitQuoted, ih]
  | plain hQuote hBackslash _ ih => rw [List.cons_append, splitQuoted_cons hQuote hBackslash, ih]

end Inert

/-- Behind an opening quote there are inert characters, and then the quote that closes them,
or nothing, or one backslash more. -/
theorem exists_inert (characters : List Char) :
    ∃ body, Inert body ∧
      ((∃ rest, characters = body ++ '"' :: rest) ∨ characters = body ∨
        characters = body ++ ['\\']) := by
  induction characters using splitQuoted.induct with
  | case1 => exact ⟨[], .nil, Or.inr (Or.inl rfl)⟩
  | case2 rest => exact ⟨[], .nil, Or.inl ⟨rest, rfl⟩⟩
  | case3 => exact ⟨[], .nil, Or.inr (Or.inr rfl)⟩
  | case4 hidden rest front back hSplit ih =>
      rcases ih with ⟨body, hBody, ends⟩
      refine ⟨_, .hidden hidden hBody, ?_⟩
      rcases ends with ⟨behind, rfl⟩ | rfl | rfl
      · exact Or.inl ⟨behind, rfl⟩
      · exact Or.inr (Or.inl rfl)
      · exact Or.inr (Or.inr rfl)
  | case5 character rest hQuote hLast hHidden front back hSplit ih =>
      have hBackslash : character ≠ '\\' := by
        rintro rfl
        cases rest with
        | nil => exact hLast rfl rfl
        | cons hidden rest => exact hHidden hidden rest rfl rfl
      rcases ih with ⟨body, hBody, ends⟩
      refine ⟨_, .plain hQuote hBackslash hBody, ?_⟩
      rcases ends with ⟨behind, rfl⟩ | rfl | rfl
      · exact Or.inl ⟨behind, rfl⟩
      · exact Or.inr (Or.inl rfl)
      · exact Or.inr (Or.inr rfl)

/-- The closing quote ends a quoted text whatever is behind it; without one nothing is behind. -/
theorem splitQuoted_replace {characters other : List Char}
    (hNothing : (splitQuoted characters).2 = [] → other = []) :
    splitQuoted ((splitQuoted characters).1 ++ other) = ((splitQuoted characters).1, other) := by
  rcases exists_inert characters with ⟨body, hBody, ⟨rest, rfl⟩ | rfl | rfl⟩
  · rw [hBody.splitQuoted_append, List.append_assoc, List.singleton_append,
      hBody.splitQuoted_append]
  · rw [hBody.splitQuoted_of_prefix List.prefix_rfl] at hNothing ⊢
    rw [hNothing rfl, List.append_nil, hBody.splitQuoted_of_prefix List.prefix_rfl]
  · rw [hBody.splitQuoted_backslash] at hNothing ⊢
    rw [hNothing rfl, List.append_nil, hBody.splitQuoted_backslash]

theorem prefix_of_prefix_concat {items : Type} {front short : List items} {last : items}
    (hShort : short <+: front ++ [last]) (hShorter : short ≠ front ++ [last]) :
    short <+: front := by
  rcases List.prefix_concat_iff.mp hShort with whole | inside
  · exact absurd whole hShorter
  · exact inside

theorem splitQuoted_inside {characters short : List Char}
    (hShort : short <+: (splitQuoted characters).1)
    (hShorter : short ≠ (splitQuoted characters).1) : splitQuoted short = (short, []) := by
  rcases exists_inert characters with ⟨body, hBody, ⟨rest, rfl⟩ | rfl | rfl⟩
  · rw [hBody.splitQuoted_append] at hShort hShorter
    exact hBody.splitQuoted_of_prefix (prefix_of_prefix_concat hShort hShorter)
  · rw [hBody.splitQuoted_of_prefix List.prefix_rfl] at hShort
    exact hBody.splitQuoted_of_prefix hShort
  · rw [hBody.splitQuoted_backslash] at hShort hShorter
    exact hBody.splitQuoted_of_prefix (prefix_of_prefix_concat hShort hShorter)

/-! ### Lexemes that are cut off behind -/

namespace Lexeme

/-- A lexeme with its class, the characters it takes off the front, and the rest. -/
inductive Takes (table : PrecedenceTable) :
    List Char → TokenKind → List Char → List Char → Prop
  | quoted (body : List Char) :
      Takes table ('"' :: body) .quoted ('"' :: (splitQuoted body).1) (splitQuoted body).2
  | word {word rest : List Char} (hSome : word ≠ []) (hWord : word.all isWordCharacter = true)
      (hRest : rest.head?.any isWordCharacter = false) :
      Takes table (word ++ rest) .word word rest
  | operator {first : Char} {front rest : List Char} (hQuote : first ≠ '"')
      (hFirst : isWordCharacter first = false)
      (hMunches : Munches table (first :: (front ++ rest).takeWhile isSymbol) (first :: front)) :
      Takes table (first :: (front ++ rest)) .operator (first :: front) rest

variable {table : PrecedenceTable} {characters taken rest short : List Char} {kind : TokenKind}

theorem head?_any_dropWhile (kind : Char → Bool) (characters : List Char) :
    (characters.dropWhile kind).head?.any kind = false := by
  have found := List.head?_dropWhile_not kind characters
  cases hHead : (characters.dropWhile kind).head? with
  | none => rfl
  | some character =>
      rw [hHead] at found
      exact found

theorem takes_read (table : PrecedenceTable) {characters : List Char} (hSome : characters ≠ []) :
    Takes table characters (read table characters).kind (read table characters).characters
      (read table characters).rest := by
  cases characters with
  | nil => contradiction
  | cons first rest =>
      by_cases hQuote : first = '"'
      · rw [hQuote]
        exact .quoted rest
      · rw [read_of_not_quote table hQuote]
        cases hFirst : isWordCharacter first with
        | true =>
            rw [if_pos rfl]
            have whole := List.takeWhile_append_dropWhile (p := isWordCharacter) (l := rest)
            have word : (first :: rest.takeWhile isWordCharacter).all isWordCharacter = true := by
              rw [List.all_cons, hFirst, List.all_takeWhile]
              rfl
            have takes : Takes table _ _ _ _ := .word (List.cons_ne_nil first _) word
              (head?_any_dropWhile isWordCharacter rest)
            rwa [List.cons_append, whole] at takes
        | false =>
            rw [if_neg Bool.false_ne_true]
            rcases Munches.of_operatorLength table (first :: rest.takeWhile isSymbol) with
              ⟨taken, hMunches, hLength⟩
            have inFront := hMunches.isPrefix.trans
              (List.cons_prefix_cons.mpr ⟨rfl, List.takeWhile_prefix isSymbol⟩)
            rcases List.prefix_cons_iff.mp inFront with rfl | ⟨front, rfl, behind, rfl⟩
            · exact absurd rfl (hMunches.ne_nil (List.cons_ne_nil first _))
            · have takes := Takes.operator hQuote hFirst hMunches
              simp only [hLength, ← List.cons_append, List.take_left, List.drop_left]
              exact takes

theorem Takes.read_eq (hTakes : Takes table characters kind taken rest) :
    read table characters = ⟨kind, taken, rest⟩ := by
  cases hTakes with
  | quoted body => rfl
  | word hSome hWord hRest => exact read_word table hSome hWord hRest
  | operator hQuote hFirst hMunches =>
      rw [read_of_not_quote table hQuote, hFirst, if_neg Bool.false_ne_true,
        hMunches.operatorLength_eq, ← List.cons_append, List.take_left, List.drop_left]

theorem Takes.append (hTakes : Takes table characters kind taken rest) :
    taken ++ rest = characters := by
  have whole := read_append table characters
  rwa [hTakes.read_eq] at whole

theorem Takes.kind_ne (hTakes : Takes table characters kind taken rest) :
    kind ≠ .endOfInput := by
  cases hTakes with
  | quoted body => exact TokenKind.noConfusion
  | word _ _ _ => exact TokenKind.noConfusion
  | operator _ _ _ => exact TokenKind.noConfusion

theorem Takes.ne_nil (hTakes : Takes table characters kind taken rest) : taken ≠ [] := by
  cases hTakes with
  | quoted body => exact List.cons_ne_nil _ _
  | word hSome _ _ => exact hSome
  | operator _ _ _ => exact List.cons_ne_nil _ _

/-- A quoted text ends with its closing quote, or it has none and nothing is behind it. -/
theorem Takes.quoted_cases (hTakes : Takes table characters .quoted taken rest) :
    (∃ inner, Inert inner ∧ taken = '"' :: (inner ++ ['"'])) ∨
      ∃ body, Unclosed body ∧ taken = '"' :: body ∧ rest = [] := by
  cases hTakes with
  | quoted body =>
      rcases exists_inert body with ⟨inner, hInner, ⟨after, rfl⟩ | rfl | rfl⟩
      · rw [hInner.splitQuoted_append]
        exact Or.inl ⟨inner, hInner, rfl⟩
      · rw [hInner.splitQuoted_of_prefix List.prefix_rfl]
        exact Or.inr ⟨body, hInner.unclosed, rfl, rfl⟩
      · rw [hInner.splitQuoted_backslash]
        exact Or.inr ⟨inner ++ ['\\'], hInner.unclosed_backslash, rfl, rfl⟩

theorem Takes.of_word (hTakes : Takes table characters .word taken rest) :
    taken ≠ [] ∧ taken.all isWordCharacter = true ∧ rest.head?.any isWordCharacter = false := by
  cases hTakes with
  | word hSome hWord hRest => exact ⟨hSome, hWord, hRest⟩

theorem Takes.of_operator (hTakes : Takes table characters .operator taken rest)
    (hHead : characters.head?.any isGap = false) :
    ∃ run back, characters = run ++ back ∧ run.all isSymbol = true ∧
      back.head?.any isSymbol = false ∧ Munches table run taken := by
  cases hTakes with
  | @operator first front _ hQuote hFirst hMunches =>
      have noGap : isGap first = false := hHead
      have symbol : isSymbol first = true := by
        simp only [isSymbol, noGap, hFirst, Bool.not_false, Bool.and_self,
          bne_iff_ne.mpr hQuote]
      have whole := List.takeWhile_append_dropWhile (p := isSymbol) (l := front ++ rest)
      refine ⟨_, (front ++ rest).dropWhile isSymbol, ?_, ?_, ?_, hMunches⟩
      · rw [List.cons_append, whole]
      · rw [List.all_cons, symbol, List.all_takeWhile]
        rfl
      · exact head?_any_dropWhile isSymbol (front ++ rest)

theorem head?_any_of_isPrefix {kind : Char → Bool} {characters short : List Char}
    (hHead : characters.head?.any kind = false) (hShort : short <+: characters) :
    short.head?.any kind = false := by
  cases short with
  | nil => rfl
  | cons character short =>
      rcases hShort with ⟨behind, rfl⟩
      exact hHead

theorem takeWhile_isPrefix (kind : Char → Bool) (hShort : short <+: characters) :
    short.takeWhile kind <+: characters.takeWhile kind := by
  rcases hShort with ⟨behind, rfl⟩
  rw [List.takeWhile_append]
  split
  · exact (List.takeWhile_prefix kind).trans (List.prefix_append _ _)
  · exact List.prefix_rfl

theorem forall_isSymbol_of_munches {first : Char} {front : List Char}
    (hMunches : Munches table (first :: (front ++ rest).takeWhile isSymbol) (first :: front)) :
    ∀ symbol ∈ front, isSymbol symbol = true := by
  intro symbol member
  have inRun := (List.cons_prefix_cons.mp hMunches.isPrefix).2
  exact List.all_eq_true.mp List.all_takeWhile symbol (inRun.subset member)

/-- Behind a lexeme `other` may stand in the place of `rest`: what kept the lexeme from going
on still does. -/
structure Replaces (other rest : List Char) : Prop where
  nothing : rest = [] → other = []
  word : rest.head?.any isWordCharacter = false → other.head?.any isWordCharacter = false
  symbols : other.takeWhile isSymbol <+: rest.takeWhile isSymbol

theorem replaces_of_isPrefix (hShort : short <+: rest) : Replaces short rest where
  nothing := by
    rintro rfl
    exact List.prefix_nil.mp hShort
  word hWord := head?_any_of_isPrefix hWord hShort
  symbols := takeWhile_isPrefix isSymbol hShort

/-- A lexeme is the same in front of what may stand behind it. -/
theorem Takes.replace {other : List Char} (hTakes : Takes table characters kind taken rest)
    (hOther : Replaces other rest) : Takes table (taken ++ other) kind taken other := by
  cases hTakes with
  | quoted body =>
      have takes : Takes table _ _ _ _ := .quoted ((splitQuoted body).1 ++ other)
      rwa [splitQuoted_replace hOther.nothing] at takes
  | word hSome hWord hRest => exact .word hSome hWord (hOther.word hRest)
  | @operator first front _ hQuote hFirst hMunches =>
      have symbols := forall_isSymbol_of_munches hMunches
      apply Takes.operator hQuote hFirst
      rw [List.takeWhile_append_of_pos symbols] at hMunches ⊢
      apply hMunches.truncate
      · exact List.cons_prefix_cons.mpr ⟨rfl, List.prefix_append _ _⟩
      · exact List.cons_prefix_cons.mpr
          ⟨rfl, (List.prefix_append_right_inj front).mpr hOther.symbols⟩

/-- A lexeme is the same whatever is taken away behind it. -/
theorem Takes.truncate (hTakes : Takes table characters kind taken rest)
    (hShort : short <+: rest) : Takes table (taken ++ short) kind taken short :=
  hTakes.replace (replaces_of_isPrefix hShort)

/-- The beginning of a lexeme that is no operator is a lexeme of the same class. -/
theorem Takes.inside (hTakes : Takes table characters kind taken rest)
    (hUnknown : table.contains (String.ofList taken) = false) (hShort : short <+: taken)
    (hSome : short ≠ []) : Takes table short kind short [] := by
  cases hTakes with
  | quoted body =>
      rcases List.prefix_cons_iff.mp hShort with rfl | ⟨inner, rfl, hInner⟩
      · contradiction
      · by_cases whole : inner = (splitQuoted body).1
        · have takes : Takes table _ _ _ _ := (Takes.quoted body).truncate List.nil_prefix
          rwa [List.append_nil, ← whole] at takes
        · have takes : Takes table _ _ _ _ := .quoted inner
          rwa [splitQuoted_inside hInner whole] at takes
  | word _ hWord _ =>
      have word : short.all isWordCharacter = true :=
        List.all_eq_true.mpr (fun character member =>
          List.all_eq_true.mp hWord character (hShort.subset member))
      have takes : Takes table (short ++ []) _ _ _ := .word hSome word rfl
      rwa [List.append_nil] at takes
  | @operator first front _ hQuote hFirst hMunches =>
      have symbols := forall_isSymbol_of_munches hMunches
      rcases List.prefix_cons_iff.mp hShort with rfl | ⟨inner, rfl, hInner⟩
      · contradiction
      · have innerSymbols : inner.all isSymbol = true :=
          List.all_eq_true.mpr (fun symbol member => symbols symbol (hInner.subset member))
        have whole : (inner ++ []).takeWhile isSymbol = inner :=
          takeWhile_append_of_head? innerSymbols rfl
        have munches : Munches table (first :: (inner ++ []).takeWhile isSymbol)
            (first :: inner) := by
          rw [whole]
          exact hMunches.inside hUnknown hShort
        have takes : Takes table (first :: (inner ++ [])) _ _ _ := .operator hQuote hFirst munches
        rwa [List.append_nil] at takes

end Lexeme

/-! ### Scanners that run out early -/

namespace Scanner

variable {table : PrecedenceTable}

theorem next_gap (table : PrecedenceTable) {gap : List Char} (hGap : gap.all isGap = true)
    (offset : Nat) (characters : List Char) :
    next table ⟨offset, gap ++ characters⟩ = next table ⟨offset + byteLength gap, characters⟩ := by
  have gaps := List.all_eq_true.mp hGap
  simp only [next, List.takeWhile_append_of_pos gaps, List.dropWhile_append_of_pos gaps,
    Text.byteLength_append, Nat.add_assoc]

theorem drain_gap (table : PrecedenceTable) {gap : List Char} (hGap : gap.all isGap = true)
    (offset : Nat) (characters : List Char) :
    (drain table ⟨offset, gap ++ characters⟩).1 =
      (drain table ⟨offset + byteLength gap, characters⟩).1 := by
  have same := next_gap table hGap offset characters
  cases hEnd : (next table ⟨offset, gap ++ characters⟩).1.isEnd with
  | true =>
      have end' := hEnd
      rw [same] at end'
      rw [drain_of_isEnd hEnd, drain_of_isEnd end', same]
  | false =>
      have token := hEnd
      rw [same] at token
      rw [drain_of_not_isEnd hEnd, drain_of_not_isEnd token, same]

theorem dropWhile_eq_append (table : PrecedenceTable) (scanner : Scanner) :
    scanner.remaining.dropWhile isGap =
      (scanner.next table).1.text.toList ++ (scanner.next table).2.remaining := by
  simp only [next, String.toList_ofList, Lexeme.read_append]

theorem takes_next {scanner : Scanner} (hToken : (scanner.next table).1.isEnd = false) :
    Lexeme.Takes table
      ((scanner.next table).1.text.toList ++ (scanner.next table).2.remaining)
      (scanner.next table).1.kind (scanner.next table).1.text.toList
      (scanner.next table).2.remaining := by
  have read := Lexeme.takes_read table (dropWhile_ne_nil hToken)
  rw [← dropWhile_eq_append]
  simpa only [next, String.toList_ofList] using read

/-- A token starts behind `front`, and whatever is taken away behind its start, the tokens
`before` it are the same. -/
structure CutsAt (table : PrecedenceTable) (scanner : Scanner) (before : List Token)
    (token : Token) (front back : List Char) : Prop where
  split : scanner.remaining = front ++ back
  start : token.span.start = scanner.offset + byteLength front
  head : back.head?.any isGap = false
  inView : (next table ⟨token.span.start, back⟩).1 = token
  truncates : ∀ short, short <+: back →
    (drain table ⟨scanner.offset, front ++ short⟩).1 =
      before ++ (drain table ⟨token.span.start, short⟩).1

theorem cutsAt_first (table : PrecedenceTable) (scanner : Scanner) :
    CutsAt table scanner [] (scanner.next table).1 (scanner.remaining.takeWhile isGap)
      (scanner.remaining.dropWhile isGap) := by
  have hGap := List.all_takeWhile (p := isGap) (l := scanner.remaining)
  have start := congrArg Span.start (scanner.span_next table)
  have whole := List.takeWhile_append_dropWhile (p := isGap) (l := scanner.remaining)
  refine ⟨whole.symm, start, Lexeme.head?_any_dropWhile isGap scanner.remaining, ?_, ?_⟩
  · rw [start, ← next_gap table hGap, whole]
  · intro short _
    rw [start]
    exact drain_gap table hGap scanner.offset short

theorem CutsAt.behind {scanner : Scanner} (hToken : (scanner.next table).1.isEnd = false)
    {before : List Token} {token : Token} {front back : List Char}
    (hCuts : CutsAt table (scanner.next table).2 before token front back) :
    CutsAt table scanner ((scanner.next table).1 :: before) token
      (scanner.remaining.takeWhile isGap ++ ((scanner.next table).1.text.toList ++ front))
      back := by
  have whole := remaining_eq_append table scanner
  have lexeme := dropWhile_eq_append table scanner
  have takes := takes_next hToken
  rw [hCuts.split] at lexeme takes
  refine ⟨?_, ?_, hCuts.head, hCuts.inView, ?_⟩
  · rw [hCuts.split] at whole
    simpa only [List.append_assoc] using whole
  · rw [hCuts.start, offset_next, span_next]
    simp only [Text.byteLength_append, Nat.add_assoc]
  · intro short hShort
    have shorter : front ++ short <+: front ++ back :=
      (List.prefix_append_right_inj front).mpr hShort
    have hRead := (takes.truncate shorter).read_eq
    have hHead := Lexeme.head?_any_of_isPrefix
      (Lexeme.head?_any_dropWhile isGap scanner.remaining)
      (lexeme ▸ (List.prefix_append_right_inj _).mpr shorter)
    have step := drain_of_read scanner.offset
      (List.all_takeWhile (p := isGap) (l := scanner.remaining)) hHead
      (beq_eq_false_iff_ne.mp hToken) hRead
    have stop : (scanner.next table).2.offset = scanner.offset +
        byteLength (scanner.remaining.takeWhile isGap) +
          byteLength (scanner.next table).1.text.toList := by
      rw [offset_next, span_next]
    rw [String.ofList_toList, ← span_next, ← stop, hCuts.truncates short hShort] at step
    rwa [List.append_assoc, List.append_assoc]

/-- Before every token a scanner can be cut off. -/
theorem exists_cutsAt {scanner : Scanner} {before after : List Token} {token : Token}
    (hDrain : (scanner.drain table).1 = before ++ token :: after) :
    ∃ front back, CutsAt table scanner before token front back := by
  induction scanner using next_induction table generalizing before with
  | atEnd scanner hEnd =>
      rw [drain_of_isEnd hEnd] at hDrain
      cases before with
      | nil =>
          rcases List.cons.inj hDrain with ⟨rfl, _⟩
          exact ⟨_, _, cutsAt_first table scanner⟩
      | cons first before => simp at hDrain
  | inFront scanner hToken ih =>
      rw [drain_of_not_isEnd hToken] at hDrain
      cases before with
      | nil =>
          rcases List.cons.inj hDrain with ⟨rfl, _⟩
          exact ⟨_, _, cutsAt_first table scanner⟩
      | cons first before =>
          rcases List.cons.inj hDrain with ⟨rfl, hBehind⟩
          rcases ih hBehind with ⟨front, back, hCuts⟩
          exact ⟨_, _, hCuts.behind hToken⟩

variable {scanner : Scanner} {before : List Token} {token : Token} {front back short : List Char}

theorem exists_drain_eq_cons (table : PrecedenceTable) (scanner : Scanner) :
    ∃ behind, (drain table scanner).1 = (next table scanner).1 :: behind := by
  cases hEnd : (next table scanner).1.isEnd with
  | true => exact ⟨[], drain_of_isEnd hEnd⟩
  | false => exact ⟨_, drain_of_not_isEnd hEnd⟩

theorem CutsAt.takes (hCuts : CutsAt table scanner before token front back)
    (hToken : token.isEnd = false) :
    ∃ rest, Lexeme.Takes table back token.kind token.text.toList rest := by
  have inView := hCuts.inView
  have something : back ≠ [] := by
    rintro rfl
    rw [← inView] at hToken
    contradiction
  have read := Lexeme.takes_read table something
  rw [← List.nil_append back, next_of_read _ rfl hCuts.head rfl] at inView
  rw [← inView, String.toList_ofList]
  exact ⟨_, read⟩

/-- Of a token that is no operator, a beginning is left where it started: all of the token, or
less of it with nothing behind. -/
theorem CutsAt.next_short (hCuts : CutsAt table scanner before token front back)
    (hToken : token.isEnd = false) (hUnknown : table.contains token.text = false)
    (hShort : short <+: back) (hSome : short ≠ []) :
    (next table ⟨token.span.start, short⟩).1.kind = token.kind ∧
      (next table ⟨token.span.start, short⟩).1.span.start = token.span.start ∧
      ((next table ⟨token.span.start, short⟩).1.text = token.text ∨
        (next table ⟨token.span.start, short⟩).2.remaining = []) := by
  rcases hCuts.takes hToken with ⟨rest, hTakes⟩
  have whole := Lexeme.read_append table back
  have head := Lexeme.head?_any_of_isPrefix hCuts.head hShort
  rw [hTakes.read_eq] at whole
  rcases List.prefix_or_prefix_of_prefix hShort ⟨rest, whole⟩ with inside | ⟨behind, rfl⟩
  · have unknown : table.contains (String.ofList token.text.toList) = false := by
      rwa [String.ofList_toList]
    have read := (hTakes.inside unknown inside hSome).read_eq
    rw [← List.nil_append short, next_of_read _ rfl head read]
    exact ⟨rfl, rfl, Or.inr rfl⟩
  · rw [← whole, List.prefix_append_right_inj] at hShort
    have read := (hTakes.truncate hShort).read_eq
    rw [← List.nil_append (token.text.toList ++ behind), next_of_read _ rfl head read]
    exact ⟨rfl, rfl, Or.inl String.ofList_toList⟩

theorem CutsAt.back_eq_nil (hCuts : CutsAt table scanner before token front back)
    (hEnd : token.isEnd = true) : back = [] := by
  rw [← hCuts.inView, isEnd_next_iff] at hEnd
  cases back with
  | nil => rfl
  | cons character back =>
      have noGap : isGap character = false := hCuts.head
      rw [List.dropWhile_cons, noGap] at hEnd
      contradiction

end Scanner
end OperatorCalculator
