import Predictive.Json.Basic

/-! Writing JSON without blanks. Quotes, backslashes and control characters are escaped. -/

set_option autoImplicit false

namespace Predictive.Json

def writeChar (c : Char) : List Char :=
  if c = '"' ∨ c = '\\' then ['\\', c]
  else if c.toNat < 32 then '\\' :: 'u' :: Text.hexDigits 4 c.toNat
  else [c]

def writeString (text : String) : String :=
  String.ofList ('"' :: text.toList.flatMap writeChar ++ ['"'])

/-- The three numbers that are no decimals are written as words. -/
def writeReal : Number.Real → String
  | .nan => "NaN"
  | .infinite negative => if negative then "-Infinity" else "Infinity"
  | value => value.text

mutual
def write : Json → String
  | .null => "null"
  | .bool true => "true"
  | .bool false => "false"
  | .integer value => toString value
  | .real value => writeReal value
  | .string value => writeString value
  | .array elements => "[" ++ ",".intercalate (writeElements elements) ++ "]"
  | .object members => "\x7b" ++ ",".intercalate (writeMembers members) ++ "\x7d"

def writeElements : List Json → List String
  | [] => []
  | value :: rest => value.write :: writeElements rest

def writeMembers : List (String × Json) → List String
  | [] => []
  | (key, value) :: rest => (writeString key ++ ":" ++ value.write) :: writeMembers rest
end

end Predictive.Json
