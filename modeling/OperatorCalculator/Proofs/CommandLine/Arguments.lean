import OperatorCalculator.CommandLine
import OperatorCalculator.Proofs.Text.Items

/-
Options that are written out.

An option that takes a value can be given any value: in the next argument, or behind an equals
sign if the value looks like an option itself.  Written like this, options are read one by one,
whatever arguments follow.
-/

set_option autoImplicit false

namespace OperatorCalculator
namespace CommandLine

/-! ### What an argument says -/

namespace OptionName

/-- The characters behind the two dashes. -/
def letters (name : OptionName) : List Char :=
  name.spelling.toList.drop 2

theorem toList_spelling (name : OptionName) :
    name.spelling.toList = '-' :: '-' :: name.letters := by
  cases name
  all_goals decide +kernel

theorem ofLong?_letters (name : OptionName) : ofLong? name.letters = some name := by
  cases name
  all_goals decide +kernel

theorem letters_ne_nil (name : OptionName) : name.letters ≠ [] := by
  cases name
  all_goals decide +kernel

theorem equals_not_in_letters (name : OptionName) : name.letters.all (· != '=') = true := by
  cases name
  all_goals decide +kernel

/-- The shortest spelling of an option that takes a value. -/
def opener : OptionName → String
  | .expression => "-e"
  | .precedence => "-p"
  | name => name.spelling

end OptionName

theorem itemsOf_spelling (name : OptionName) :
    itemsOf name.spelling = [if name.takesValue then .await name else .set name] := by
  cases name
  all_goals rfl

theorem itemsOf_opener {name : OptionName} (hValue : name.takesValue = true) :
    itemsOf name.opener = [.await name] := by
  cases name with
  | expression => rfl
  | precedence => rfl
  | prompt => rfl
  | trace | strict | help | version => contradiction

theorem longItem_letters_value {name : OptionName} (hValue : name.takesValue = true)
    (value : List Char) :
    longItem (name.letters ++ '=' :: value) = .give name (String.ofList value) := by
  have ends : ('=' :: value).head?.any (· != '=') = false := rfl
  have letters := name.equals_not_in_letters
  rw [longItem, takeWhile_append_of_head? letters ends, dropWhile_append_of_head? letters ends,
    name.ofLong?_letters]
  exact if_pos hValue

theorem itemsOf_spelling_value {name : OptionName} (hValue : name.takesValue = true)
    (value : String) : itemsOf (name.spelling ++ "=" ++ value) = [.give name value] := by
  have characters : (name.spelling ++ "=" ++ value).toList =
      '-' :: '-' :: (name.letters ++ '=' :: value.toList) := by
    rw [String.toList_append, String.toList_append, name.toList_spelling, List.append_assoc]
    rfl
  have item := longItem_letters_value hValue value.toList
  rw [String.ofList_toList] at item
  obtain ⟨first, others, hLetters⟩ := List.exists_cons_of_ne_nil name.letters_ne_nil
  rw [hLetters] at characters item
  rw [itemsOf, characters]
  exact congrArg (fun item => [item]) item

/-! ### Reading arguments one by one -/

/-- An option with its value, in one argument if the value looks like an option itself. -/
def valueArguments (name : OptionName) (value : String) : List String :=
  if looksLikeOption value then [name.spelling ++ "=" ++ value] else [name.opener, value]

namespace Choices

variable {choices taken : Choices} {name : OptionName}

theorem takeArguments_of_takeItems {argument : String} {rest left : List String}
    (hTaken : choices.takeItems argument rest (itemsOf argument) = .ok (taken, left)) :
    choices.takeArguments (argument :: rest) = taken.takeArguments left := by
  rw [takeArguments]
  split
  · rename_i hStop
    cases hStop.symm.trans hTaken
  · rename_i hFound
    cases hFound.symm.trans hTaken
    rfl

theorem takeArguments_spelling (hFlag : name.takesValue = false)
    (hSet : choices.set name = .ok taken) (rest : List String) :
    choices.takeArguments (name.spelling :: rest) = taken.takeArguments rest := by
  apply takeArguments_of_takeItems
  rw [itemsOf_spelling, hFlag, if_neg Bool.false_ne_true, takeItems, hSet]
  rfl

theorem takeArguments_valueArguments (hValue : name.takesValue = true) {value : String}
    (hGive : choices.give name value = .ok taken) (rest : List String) :
    choices.takeArguments (valueArguments name value ++ rest) = taken.takeArguments rest := by
  rw [valueArguments]
  by_cases hOption : looksLikeOption value = true
  · rw [if_pos hOption]
    apply takeArguments_of_takeItems
    rw [itemsOf_spelling_value hValue, takeItems, hGive]
    rfl
  · rw [if_neg hOption]
    have taking : choices.takeItems name.opener (value :: rest) (itemsOf name.opener) =
        .ok (taken, rest) := by
      rw [itemsOf_opener hValue, takeItems, if_neg hOption, hGive]
      rfl
    exact takeArguments_of_takeItems taking

theorem takeArguments_nil (choices : Choices) : choices.takeArguments [] = .ok choices := by
  rw [takeArguments]

theorem takeArguments_expressions (choices : Choices) (expressions rest : List String) :
    choices.takeArguments (expressions.flatMap (valueArguments .expression) ++ rest) =
      takeArguments { choices with expressions := choices.expressions ++ expressions } rest := by
  induction expressions generalizing choices with
  | nil => rw [List.append_nil]; rfl
  | cons expression expressions ih =>
      rw [List.flatMap_cons, List.append_assoc, takeArguments_valueArguments rfl rfl, ih]
      simp only [List.append_assoc, List.singleton_append]

end Choices

/-! ### Options with their values -/

structure AcceptedEntry where
  written : String
  operator : String
  level : Level
  accepted : PrecedenceTable.parseEntry written = .ok (operator, level)

/-- The options that say how to answer an expression, wherever it comes from. -/
structure Options where
  strict : Bool
  trace : Bool
  entries : List AcceptedEntry

namespace Options

def arguments (options : Options) : List String :=
  (if options.strict then [OptionName.strict.spelling] else []) ++
    ((if options.trace then [OptionName.trace.spelling] else []) ++
      options.entries.flatMap fun entry => valueArguments .precedence entry.written)

def choices (options : Options) (expressions : List String) (prompt? : Option String) :
    Choices where
  expressions := expressions
  levels := options.entries.map fun entry => (entry.operator, entry.level)
  prompt? := prompt?
  trace := options.trace
  strict := options.strict

end Options

namespace Choices

theorem takeArguments_entries (choices : Choices) (entries : List AcceptedEntry)
    (rest : List String) :
    choices.takeArguments
        (entries.flatMap (fun entry => valueArguments .precedence entry.written) ++ rest) =
      takeArguments
        { choices with
          levels := choices.levels ++ entries.map fun entry => (entry.operator, entry.level) }
        rest := by
  induction entries generalizing choices with
  | nil => rw [List.map_nil, List.append_nil]; rfl
  | cons entry entries ih =>
      have given : choices.give .precedence entry.written =
          .ok { choices with levels := choices.levels ++ [(entry.operator, entry.level)] } := by
        rw [give, entry.accepted]
      rw [List.flatMap_cons, List.append_assoc, takeArguments_valueArguments rfl given, ih]
      simp only [List.map_cons, List.append_assoc, List.singleton_append]

theorem takeArguments_options (options : Options) (rest : List String) :
    takeArguments {} (options.arguments ++ rest) =
      takeArguments (options.choices [] none) rest := by
  obtain ⟨strict, trace, entries⟩ := options
  have setsStrict : ∀ rest,
      takeArguments {} ((if strict then [OptionName.strict.spelling] else []) ++ rest) =
        takeArguments { strict := strict } rest := by
    intro rest
    cases strict with
    | false => rfl
    | true => exact takeArguments_spelling rfl rfl rest
  have setsTrace : ∀ rest,
      takeArguments { strict := strict }
          ((if trace then [OptionName.trace.spelling] else []) ++ rest) =
        takeArguments { strict := strict, trace := trace } rest := by
    intro rest
    cases trace with
    | false => rfl
    | true => exact takeArguments_spelling rfl rfl rest
  rw [Options.arguments, List.append_assoc, List.append_assoc, setsStrict, setsTrace,
    takeArguments_entries]
  rfl

end Choices
end CommandLine
end OperatorCalculator
