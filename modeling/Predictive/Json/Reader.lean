import Predictive.Json.Basic
import Predictive.Text.Encoding

/-! Reading JSON. Beyond the standard, the three words `NaN`, `Infinity` and `-Infinity` are
numbers, a repeated key takes its last value, an integer of more than 4300 digits is refused, and
so is a text in which arrays and objects nest too deep. Every reader answers with the value and
what follows it. -/

set_option autoImplicit false

namespace Predictive.Json

def isSpace (c : Char) : Bool :=
  c == ' ' || c == '\t' || c == '\n' || c == '\r'

def skipSpace (text : List Char) : List Char :=
  text.dropWhile isSpace

def isDigit (c : Char) : Bool :=
  '0' ≤ c && c ≤ '9'

def decimalValue (digits : List Char) : Nat :=
  digits.foldl (fun value c => 10 * value + (c.toNat - 48)) 0

def hexValue? (c : Char) : Option Nat :=
  if isDigit c then some (c.toNat - 48)
  else if 'a' ≤ c ∧ c ≤ 'f' then some (c.toNat - 87)
  else if 'A' ≤ c ∧ c ≤ 'F' then some (c.toNat - 55)
  else none

def hexUnit? (first second third fourth : Char) : Option Nat := do
  let first ← hexValue? first
  let second ← hexValue? second
  let third ← hexValue? third
  let fourth ← hexValue? fourth
  return ((first * 16 + second) * 16 + third) * 16 + fourth

/-- What one letter behind a backslash stands for. -/
def simpleEscape? : Char → Option Char
  | '"' => some '"'
  | '\\' => some '\\'
  | '/' => some '/'
  | 'b' => some '\x08'
  | 'f' => some '\x0c'
  | 'n' => some '\n'
  | 'r' => some '\r'
  | 't' => some '\t'
  | _ => none

/-- A string up to its closing quote; `read` holds what came before, last character first. A pair
of escaped surrogates is one character. -/
def readString? (read : List Char) : List Char → Option (String × List Char)
  | [] => none
  | '"' :: rest => some (String.ofList read.reverse, rest)
  | '\\' :: 'u' :: h1 :: h2 :: h3 :: h4 :: '\\' :: 'u' :: l1 :: l2 :: l3 :: l4 :: rest =>
    match hexUnit? h1 h2 h3 h4, hexUnit? l1 l2 l3 l4 with
    | some high, some low =>
      if Text.isHighSurrogate high && Text.isLowSurrogate low then
        readString? (Text.joinSurrogates high low :: read) rest
      else
        readString? (Text.charOfUnit high :: read)
          ('\\' :: 'u' :: l1 :: l2 :: l3 :: l4 :: rest)
    | _, _ => none
  | '\\' :: 'u' :: h1 :: h2 :: h3 :: h4 :: rest =>
    match hexUnit? h1 h2 h3 h4 with
    | some unit => readString? (Text.charOfUnit unit :: read) rest
    | none => none
  | '\\' :: c :: rest =>
    match simpleEscape? c with
    | some c => readString? (c :: read) rest
    | none => none
  | c :: rest => if c.toNat < 32 then none else readString? (c :: read) rest
termination_by text => text.length

/-- The digits of a fraction and what follows them; a point without digits is no fraction. -/
def readFraction : List Char → List Char × List Char
  | '.' :: rest =>
    match rest.takeWhile isDigit with
    | [] => ([], '.' :: rest)
    | digits => (digits, rest.dropWhile isDigit)
  | text => ([], text)

/-- An exponent, if a mark with digits behind it follows. -/
def readExponent? (text : List Char) : Option (Int × List Char) :=
  match text with
  | mark :: rest =>
    if mark = 'e' ∨ mark = 'E' then
      let (negative, digits) := match rest with
        | '-' :: digits => (true, digits)
        | '+' :: digits => (false, digits)
        | digits => (false, digits)
      match digits.takeWhile isDigit with
      | [] => none
      | found =>
        let size : Int := decimalValue found
        some (if negative then -size else size, digits.dropWhile isDigit)
    else none
  | [] => none

/-- A number behind its sign. A leading zero stands alone. -/
def readNumber? (negative : Bool) (text : List Char) : Option (Json × List Char) :=
  let whole := match text with
    | '0' :: _ => ['0']
    | _ => text.takeWhile isDigit
  if whole = [] then none
  else
    let (fraction, rest) := readFraction (text.drop whole.length)
    match fraction, readExponent? rest with
    | [], none =>
      if whole.length ≤ 4300 then
        let size : Int := decimalValue whole
        some (.integer (if negative then -size else size), rest)
      else none
    | _, exponent =>
      let (shift, rest) := exponent.getD (0, rest)
      some (.real (.ofDecimal negative (decimalValue (whole ++ fraction))
        (shift - fraction.length)), rest)

/-- The text behind a word that it starts with. -/
def afterWord? (word text : List Char) : Option (List Char) :=
  if word.isPrefixOf text then some (text.drop word.length) else none

/-- A value other than a string, an array or an object. -/
def readPlain? (text : List Char) : Option (Json × List Char) :=
  ((afterWord? "null".toList text).map (.null, ·)) <|>
  ((afterWord? "true".toList text).map (.bool true, ·)) <|>
  ((afterWord? "false".toList text).map (.bool false, ·)) <|>
  ((afterWord? "NaN".toList text).map (.real .nan, ·)) <|>
  ((afterWord? "Infinity".toList text).map (.real (.infinite false), ·)) <|>
  ((afterWord? "-Infinity".toList text).map (.real (.infinite true), ·)) <|>
  match text with
  | '-' :: rest => readNumber? true rest
  | text => readNumber? false text

inductive ReadError where
  | malformed
  | tooDeep
  deriving DecidableEq, Repr

def orMalformed {Value : Type} : Option Value → Except ReadError Value
  | some value => .ok value
  | none => .error .malformed

mutual
/-- A value, where `depth` more arrays and objects may be opened. Every reader spends one unit of
fuel on each call, and reads at least one character for it or ends. -/
def readValue : (fuel depth : Nat) → List Char → Except ReadError (Json × List Char)
  | 0, _, _ => .error .malformed
  | _ + 1, _, '"' :: rest =>
    orMalformed ((readString? [] rest).map fun (text, rest) => (.string text, rest))
  | _ + 1, 0, '[' :: _ => .error .tooDeep
  | _ + 1, 0, '\x7b' :: _ => .error .tooDeep
  | fuel + 1, depth + 1, '[' :: rest =>
    match skipSpace rest with
    | ']' :: rest => .ok (.array [], rest)
    | rest => readElements fuel depth [] rest
  | fuel + 1, depth + 1, '\x7b' :: rest =>
    match skipSpace rest with
    | '\x7d' :: rest => .ok (.object [], rest)
    | rest => readMembers fuel depth [] rest
  | _ + 1, _, text => orMalformed (readPlain? text)

/-- The elements of an array from one that must follow; `read` holds those before it, last
element first. -/
def readElements : (fuel depth : Nat) → (read : List Json) → List Char →
    Except ReadError (Json × List Char)
  | 0, _, _, _ => .error .malformed
  | fuel + 1, depth, read, text =>
    match readValue fuel depth text with
    | .error cause => .error cause
    | .ok (value, rest) =>
      match skipSpace rest with
      | ',' :: rest => readElements fuel depth (value :: read) (skipSpace rest)
      | ']' :: rest => .ok (.array (value :: read).reverse, rest)
      | _ => .error .malformed

/-- The members of an object from one that must follow. -/
def readMembers : (fuel depth : Nat) → (read : List (String × Json)) → List Char →
    Except ReadError (Json × List Char)
  | fuel + 1, depth, read, '"' :: rest =>
    match readString? [] rest with
    | none => .error .malformed
    | some (key, rest) =>
      match skipSpace rest with
      | ':' :: rest =>
        match readValue fuel depth (skipSpace rest) with
        | .error cause => .error cause
        | .ok (value, rest) =>
          let read := setMember read key value
          match skipSpace rest with
          | ',' :: rest => readMembers fuel depth read (skipSpace rest)
          | '\x7d' :: rest => .ok (.object read, rest)
          | _ => .error .malformed
      | _ => .error .malformed
  | _, _, _, _ => .error .malformed
end

/-- The value that a whole text denotes; blanks may stand around it. Arrays and objects nest at
most `depth` deep. -/
def read (depth : Nat) (text : List Char) : Except ReadError Json :=
  let text := skipSpace text
  match readValue (text.length + 1) depth text with
  | .error cause => .error cause
  | .ok (value, rest) => if skipSpace rest = [] then .ok value else .error .malformed

end Predictive.Json
