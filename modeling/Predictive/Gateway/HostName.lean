import Predictive.Gateway.Punycode
import Predictive.Text.Blank
import Predictive.Text.Case
import Predictive.Gateway.Composition
import Predictive.Gateway.Direction
import Predictive.Text.Encoding
import Predictive.Gateway.Folding
import Predictive.Text.Quoted

/-! Host names. A name is a row of labels between dots, and is sent in ASCII: a label beyond ASCII
is folded and composed, and then has an ASCII form behind a mark. -/

set_option autoImplicit false

namespace Predictive.Gateway

open Text

/-- Why a host name cannot be sent, or what was sent is no host name. -/
inductive HostNameError where
  | emptyOrLongLabel
  | longLabel
  | invalidCharacter (point : Nat)
  | bothDirections
  | directionOfEnds
  | markedLabel
  | invalidForm (cause : Punycode.ReadError)
  | otherForm (label again : List Char)
  deriving DecidableEq, Repr

/-- A code point between quotes, which may be half of a pair. -/
def quotePoint (point : Nat) : String :=
  if isHighSurrogate point || isLowSurrogate point then
    "'\\u" ++ String.ofList (hexDigits 4 point) ++ "'"
  else Text.quote (Char.ofNat point).toString

/-- What is told about a label. -/
def HostNameError.reason : HostNameError → String
  | .emptyOrLongLabel => "label empty or too long"
  | .longLabel => "label too long"
  | .invalidCharacter point => "Invalid character " ++ quotePoint point
  | .bothDirections => "Violation of BIDI requirement 2"
  | .directionOfEnds => "Violation of BIDI requirement 3"
  | .markedLabel => "Label starts with ACE prefix"
  | .invalidForm cause =>
    "decoding with 'punycode' codec failed (UnicodeError: " ++ cause.message ++ ")"
  | .otherForm label again =>
    "('IDNA does not round-trip', b" ++ Text.quote (String.ofList label) ++ ", b" ++
      Text.quote (String.ofList again) ++ ")"

/-- What is told when a host name is written, or read back. -/
def HostNameError.message (activity : String) : HostNameError → String
  | .otherForm label again => (HostNameError.otherForm label again).reason
  | cause => activity ++ " with 'idna' codec failed (UnicodeError: " ++ cause.reason ++ ")"

/-- The characters that no label has: controls, formats, private and unassigned code points, halves
of pairs, and the spaces that folding leaves. -/
def invalidRanges : List (Nat × Nat) :=
  [(128, 159), (1757, 1757), (1807, 1807), (5760, 5760), (6158, 6158), (8206, 8207), (8232, 8238),
   (8289, 8291), (8298, 8303), (12272, 12283), (55296, 63743), (64976, 65007), (65529, 65535),
   (119155, 119162), (131070, 131071), (196606, 196607), (262142, 262143), (327678, 327679),
   (393214, 393215), (458750, 458751), (524286, 524287), (589822, 589823), (655358, 655359),
   (720894, 720895), (786430, 786431), (851966, 851967), (917502, 917503), (917505, 917505),
   (917536, 917631), (983038, 1114111)]

def isAscii (point : Nat) : Bool :=
  point < 128

/-- A label with letters from right to left has no others, and begins and ends with such letters. -/
def checkDirection (label : List Nat) : Except HostNameError Unit :=
  if !label.any isRightToLeft then .ok ()
  else if label.any isLeftToRight then .error .bothDirections
  else if label.head?.all isRightToLeft && label.getLast?.all isRightToLeft then .ok ()
  else .error .directionOfEnds

/-- A label, folded and composed. -/
def prepareLabel (label : List Nat) : Except HostNameError (List Nat) := do
  let prepared := composedForm (label.flatMap fold)
  match prepared.find? (inRanges invalidRanges) with
  | some point => throw (.invalidCharacter point)
  | none =>
    checkDirection prepared
    return prepared

/-- A label as it is sent has one to 63 characters. -/
def checkLength (label : List Char) : Except HostNameError (List Char) :=
  if label.isEmpty || 63 < label.length then .error .emptyOrLongLabel else .ok label

/-- The mark in front of an ASCII form. -/
def formMark : List Char :=
  "xn--".toList

def encodeLabel (label : List Nat) : Except HostNameError (List Char) :=
  if label.all isAscii then checkLength (label.map Char.ofNat)
  else do
    let prepared ← prepareLabel label
    if prepared.all isAscii then checkLength (prepared.map Char.ofNat)
    else if (formMark.map Char.toNat).isPrefixOf prepared then throw .markedLabel
    else checkLength (formMark ++ Punycode.encode prepared)

/-- The label that was sent. It has no other ASCII form than this one. -/
def decodeLabel (label : List Char) : Except HostNameError (List Char) :=
  if !formMark.isPrefixOf label then .ok label
  else
    match Punycode.decode (label.drop formMark.length) with
    | .error cause => .error (.invalidForm cause)
    | .ok points => do
      let again ← encodeLabel points
      if label.map small = again then return points.map Char.ofNat
      else throw (.otherForm label again)

namespace HostName

/-- The labels of a name, of which the last is left out if it is empty. -/
def labels (host : List Char) : List (List Char) :=
  let labels := cutAt '.' host
  if labels.getLast? = some [] then labels.dropLast else labels

/-- Other labels in place of those of a name. -/
def withLabels (host : List Char) (labels : List (List Char)) : List Char :=
  joinWith '.' labels ++ if host.getLast? = some '.' then ['.'] else []

/-- In a name within ASCII only the last label may be empty. -/
def checkLabels (host : List Char) : Except HostNameError (List Char) :=
  let labels := cutAt '.' host
  if labels.dropLast.any fun label => label.isEmpty || 63 < label.length then
    .error .emptyOrLongLabel
  else if labels.getLast?.any fun label => 63 < label.length then .error .longLabel
  else .ok host

/-- The dot, where a character is taken for one in a name beyond ASCII. -/
def plainDot (c : Char) : Char :=
  if c = '。' || c = '．' || c = '｡' then '.' else c

/-- A host name as it is sent. -/
def encode (host : List Char) : Except HostNameError (List Char) :=
  if host.all (·.toNat < 128) then checkLabels host
  else do
    let host := host.map plainDot
    return withLabels host (← (labels host).mapM fun label => encodeLabel (label.map Char.toNat))

/-- Whether a label may have an ASCII form, or anything else has its mark. -/
def hasMark : List Char → Bool
  | [] => false
  | c :: rest => formMark.isPrefixOf (c :: rest) || hasMark rest

def decode (host : List Char) : Except HostNameError (List Char) :=
  if !hasMark host then .ok host
  else do
    return withLabels host (← (labels host).mapM decodeLabel)

end HostName

end Predictive.Gateway
