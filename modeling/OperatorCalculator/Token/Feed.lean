import OperatorCalculator.Token.Scanner

/-
Tokens on demand.

A feed hands out the tokens of an expression one by one, or all that are left, and can
go back to where it was when its place was saved.  At the end there is the end of
input again and again, or nothing for those who ask for a next token only if there is
one.
-/

set_option autoImplicit false

namespace OperatorCalculator

structure Feed where
  scanner : Scanner
  saved : Scanner

namespace Feed

inductive Step where
  | nextToken
  | next
  | collect
  | remainder
  | isAtEnd
  | save
  | restore
  deriving DecidableEq

inductive Reply where
  | token (token : Token)
  | token? (token? : Option Token)
  | tokens (tokens : List Token)
  | remainder (characters? : Option (List Char))
  | isAtEnd (flag : Bool)
  | done
  deriving DecidableEq

def start (source : String) : Feed :=
  ⟨.start source, .start source⟩

def answer (table : PrecedenceTable) (feed : Feed) : Step → Reply × Feed
  | .nextToken =>
      let (token, behind) := feed.scanner.next table
      (.token token, { feed with scanner := behind })
  | .next =>
      let (token, behind) := feed.scanner.next table
      (.token? (if token.isEnd then none else some token), { feed with scanner := behind })
  | .collect =>
      let (tokens, behind) := feed.scanner.drain table
      (.tokens (tokens.filter (!·.isEnd)), { feed with scanner := behind })
  | .remainder => (.remainder (some feed.scanner.remaining), feed)
  | .isAtEnd => (.isAtEnd feed.scanner.isAtEnd, feed)
  | .save => (.done, { feed with saved := feed.scanner })
  | .restore => (.done, { feed with scanner := feed.saved })

def replies {State : Type} (answer : State → Step → Reply × State) (state : State) :
    List Step → List Reply
  | [] => []
  | step :: steps =>
      let (reply, after) := answer state step
      reply :: replies answer after steps

end Feed
end OperatorCalculator
