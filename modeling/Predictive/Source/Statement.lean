import Predictive.Source.Comments
import Predictive.Text.Word
import Predictive.Grammar.Error

/-! Statements of a grammar text: a left-hand side, an arrow and alternatives, where lines without
an arrow continue the statement above them. -/

set_option autoImplicit false

namespace Predictive.Source

open Text

def startsName (c : Char) : Bool :=
  isAsciiLetter c || c == '_'

def continuesName (c : Char) : Bool :=
  isWord c || c == '\''

/-- What follows an arrow; the longer of two arrows wins. -/
def afterArrow? : List Char → Option (List Char)
  | '-' :: '>' :: rest => some rest
  | '→' :: rest => some rest
  | ':' :: ':' :: '=' :: rest => some rest
  | ':' :: rest => some rest
  | '=' :: rest => some rest
  | _ => none

/-- The name on the left of a statement and the text on the right of its arrow. -/
def readHead? (statement : List Char) : Option (List Char × List Char) :=
  match trimStart statement with
  | [] => none
  | first :: rest =>
    if startsName first then
      (afterArrow? (trimStart (rest.dropWhile continuesName))).map fun right =>
        (first :: rest.takeWhile continuesName, trimStart right)
    else none

def isHead (line : List Char) : Bool :=
  (readHead? line).isSome

/-- The statement that is being read and those of the following lines. -/
def continueStatement (current : List Char) : List (List Char) → List (List Char)
  | [] => [current]
  | line :: rest =>
    if isHead line then current :: continueStatement line rest
    else continueStatement (current ++ ' ' :: line) rest

/-- The statements of some lines. Only the first line can be out of place, since every other one
continues what came before. -/
def groupLines : List (List Char) → Except GrammarError (List (List Char))
  | [] => .ok []
  | line :: rest =>
    if isHead line then .ok (continueStatement line rest)
    else .error (.unreadableLine (String.ofList line))

def statements (text : List Char) : Except GrammarError (List (List Char)) :=
  groupLines (cutAt '\n' text)

end Predictive.Source
