import Predictive.Text.Case

/-! Labels of host names beyond ASCII, written in ASCII: the ASCII characters of the label, a
hyphen, and where the others are inserted, in the order of their code points. A distance is written
in digits of base 36, the lowest first; which digits end it depends on the distances before. -/

set_option autoImplicit false

namespace Predictive.Gateway.Punycode

inductive ReadError where
  | incomplete
  | invalidDigit (c : Char)
  | beyondUnicode (point : Nat)
  deriving DecidableEq, Repr

def ReadError.message : ReadError → String
  | .incomplete => "incomplete punicode string"
  | .invalidDigit c => "Invalid extended code point '" ++ c.toString ++ "'"
  | .beyondUnicode point =>
    "Invalid character U+" ++ String.ofList (Nat.toDigits 16 point)

def digit (value : Nat) : Char :=
  if value < 26 then Char.ofNat (97 + value) else Char.ofNat (22 + value)

def digitValue? (c : Char) : Option Nat :=
  if 'A' ≤ c ∧ c ≤ 'Z' then some (c.toNat - 65)
  else if '0' ≤ c ∧ c ≤ '9' then some (c.toNat - 22)
  else none

/-- The digits below the threshold end a distance; `place` is 36 for the first digit and grows by
36 for each one behind it. -/
def threshold (place bias : Nat) : Nat :=
  if place ≤ bias + 1 then 1 else if bias + 26 ≤ place then 26 else place - bias

theorem threshold_pos (place bias : Nat) : 1 ≤ threshold place bias := by
  unfold threshold
  split
  · exact Nat.le_refl 1
  · split <;> omega

/-- Divides a distance by 35 until it is small, counting 36 for each time. -/
def scale (distance counted : Nat) : Nat × Nat :=
  if 455 < distance then scale (distance / 35) (counted + 36) else (distance, counted)
  termination_by distance
  decreasing_by exact Nat.div_lt_self (by omega) (by omega)

/-- The bias behind a distance, when so many characters are in place. -/
def adapt (distance : Nat) (isFirst : Bool) (count : Nat) : Nat :=
  let damped := if isFirst then distance / 700 else distance / 2
  let (rest, counted) := scale (damped + damped / count) 0
  counted + 36 * rest / (rest + 38)

/-- The digits of a distance from some place on. -/
def digits (bias place distance : Nat) : List Char :=
  let limit := threshold place bias
  if distance < limit then [digit distance]
  else
    digit (limit + (distance - limit) % (36 - limit)) ::
      digits bias (place + 36) ((distance - limit) / (36 - limit))
  termination_by distance
  decreasing_by
    have pos := threshold_pos place bias
    exact Nat.lt_of_le_of_lt (Nat.div_le_self _ _) (by omega)

/-- What is written so far, and what decides how the next distance is written. -/
structure Writer where
  written : List Char
  distance : Nat
  bias : Nat
  count : Nat
  deriving Repr

/-- Goes past a character of the label while the occurrences of `point` are written. -/
def Writer.pass (point ascii : Nat) (writer : Writer) (next : Nat) : Writer :=
  if next < point then { writer with distance := writer.distance + 1 }
  else if next = point then
    { written := writer.written ++ digits writer.bias 36 writer.distance
      distance := 0
      bias := adapt writer.distance (writer.count == ascii) (writer.count + 1)
      count := writer.count + 1 }
  else writer

/-- Writes the occurrences of each code point, the lowest first. -/
def writeAll (label : List Nat) (ascii : Nat) :
    (points : List Nat) → (lowest : Nat) → Writer → List Char
  | [], _, writer => writer.written
  | point :: points, lowest, writer =>
    let start := { writer with
      distance := writer.distance + (point - lowest) * (writer.count + 1) }
    let passed := label.foldl (Writer.pass point ascii) start
    writeAll label ascii points (point + 1) { passed with distance := passed.distance + 1 }

def encode (label : List Nat) : List Char :=
  let ascii := label.filter (· < 128)
  let points := ((label.filter (128 ≤ ·)).mergeSort).eraseDups
  ascii.map Char.ofNat ++ (if ascii.isEmpty then [] else ['-']) ++
    writeAll label ascii.length points 128 ⟨[], 0, 72, ascii.length⟩

/-- Reads a distance, and gives the text behind it. -/
def readDistance (bias : Nat) :
    (text : List Char) → (place weight read : Nat) → Except ReadError (Nat × List Char)
  | [], _, _, _ => .error .incomplete
  | c :: rest, place, weight, read =>
    match digitValue? c with
    | none => .error (.invalidDigit c)
    | some value =>
      let limit := threshold place bias
      if value < limit then .ok (read + value * weight, rest)
      else readDistance bias rest (place + 36) (weight * (36 - limit)) (read + value * weight)

theorem length_readDistance_lt (bias : Nat) (text : List Char) (place weight read : Nat)
    (distance : Nat) (rest : List Char)
    (same : readDistance bias text place weight read = .ok (distance, rest)) :
    rest.length < text.length := by
  fun_induction readDistance bias text place weight read with
  | case1 => cases same
  | case2 => cases same
  | case3 =>
    cases same
    exact Nat.lt_succ_self _
  | case4 place weight read c others value _ limit _ ih =>
    exact Nat.lt_succ_of_lt (ih same)

/-- Inserts the characters of a text into a label. The next one has at least the code point
`point`, and goes to `place` or behind. -/
def insertAll (bias point place : Nat) (isFirst : Bool) (label : List Nat) (text : List Char) :
    Except ReadError (List Nat) :=
  if text.isEmpty then .ok label
  else
    match found : readDistance bias text 36 1 0 with
    | .error cause => .error cause
    | .ok (distance, rest) =>
      let count := label.length + 1
      let inserted := point + (place + distance) / count
      let place := (place + distance) % count
      if 0x10FFFF < inserted then .error (.beyondUnicode inserted)
      else
        insertAll (adapt distance isFirst count) inserted (place + 1) false
          (label.insertIdx place inserted) rest
  termination_by text.length
  decreasing_by exact length_readDistance_lt _ _ _ _ _ _ _ found

/-- The label of an ASCII form; its last hyphen ends the ASCII characters. -/
def decode (text : List Char) : Except ReadError (List Nat) :=
  let inserted := (text.reverse.takeWhile (· != '-')).reverse
  let ascii := text.take (text.length - inserted.length - 1)
  insertAll 72 128 0 true (ascii.map Char.toNat) (inserted.map Text.capital)

end Predictive.Gateway.Punycode
