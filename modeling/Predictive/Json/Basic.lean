import Predictive.Number.Shortest
import Predictive.Text.Quoted

/-! JSON values. Members of an object are kept in order, each key once. -/

set_option autoImplicit false

namespace Predictive

inductive Json where
  | null
  | bool (value : Bool)
  | integer (value : Int)
  | real (value : Number.Real)
  | string (value : String)
  | array (elements : List Json)
  | object (members : List (String × Json))
  deriving Repr, Inhabited

namespace Json

/-- The members with a value for a key; a key that is there keeps its place. -/
def setMember (members : List (String × Json)) (key : String) (value : Json) :
    List (String × Json) :=
  match members with
  | [] => [(key, value)]
  | (other, old) :: rest =>
    if other = key then (key, value) :: rest else (other, old) :: setMember rest key value

def member? (members : List (String × Json)) (key : String) : Option Json :=
  (members.find? (·.1 = key)).map Prod.snd

def get? (key : String) : Json → Option Json
  | .object members => member? members key
  | _ => none

/-- Whether a value counts as a yes: null, zero and everything empty do not. -/
def isTruthy : Json → Bool
  | .null => false
  | .bool value => value
  | .integer value => value != 0
  | .real value => !value.isZero
  | .string value => !value.isEmpty
  | .array elements => !elements.isEmpty
  | .object members => !members.isEmpty

mutual
/-- The text of a value inside a message; texts inside of others are quoted. -/
def quotedText : Json → String
  | .null => "None"
  | .bool true => "True"
  | .bool false => "False"
  | .integer value => toString value
  | .real value => value.text
  | .string value => Text.quote value
  | .array elements => "[" ++ ", ".intercalate (elementTexts elements) ++ "]"
  | .object members => "\x7b" ++ ", ".intercalate (memberTexts members) ++ "\x7d"

def elementTexts : List Json → List String
  | [] => []
  | value :: rest => value.quotedText :: elementTexts rest

def memberTexts : List (String × Json) → List String
  | [] => []
  | (key, value) :: rest => (Text.quote key ++ ": " ++ value.quotedText) :: memberTexts rest
end

/-- The text of a value inside a message. -/
def text : Json → String
  | .string value => value
  | value => value.quotedText

mutual
/-- The value with the members of every object in the order of their keys. -/
def sorted : Json → Json
  | .array elements => .array (sortedElements elements)
  | .object members => .object ((sortedMembers members).mergeSort (·.1 ≤ ·.1))
  | value => value

def sortedElements : List Json → List Json
  | [] => []
  | value :: rest => value.sorted :: sortedElements rest

def sortedMembers : List (String × Json) → List (String × Json)
  | [] => []
  | (key, value) :: rest => (key, value.sorted) :: sortedMembers rest
end

end Json

end Predictive
