/-! Texts as octets, in the encodings whose units are wider than one octet. A surrogate that stands
alone is no character and is read as the replacement character. -/

set_option autoImplicit false

namespace Predictive.Text

/-- Whether a unit is the first half of a pair. -/
def isHighSurrogate (unit : Nat) : Bool :=
  0xD800 ≤ unit && unit < 0xDC00

/-- Whether a unit is the second half of a pair. -/
def isLowSurrogate (unit : Nat) : Bool :=
  0xDC00 ≤ unit && unit < 0xE000

def joinSurrogates (high low : Nat) : Char :=
  Char.ofNat (0x10000 + (high - 0xD800) * 0x400 + (low - 0xDC00))

def charOfUnit (unit : Nat) : Char :=
  if isHighSurrogate unit || isLowSurrogate unit then '\ufffd' else Char.ofNat unit

/-- The characters of units of two octets. -/
def charsOfUnits : List Nat → List Char
  | [] => []
  | [unit] => [charOfUnit unit]
  | high :: low :: rest =>
    if isHighSurrogate high && isLowSurrogate low then
      joinSurrogates high low :: charsOfUnits rest
    else charOfUnit high :: charsOfUnits (low :: rest)

/-- Whether the most or the least significant octet of a unit comes first. -/
inductive OctetOrder where
  | big
  | little
  deriving DecidableEq, Repr

namespace OctetOrder

/-- The unit of two octets. -/
def pair (order : OctetOrder) (first second : UInt8) : Nat :=
  match order with
  | .big => first.toNat * 256 + second.toNat
  | .little => second.toNat * 256 + first.toNat

/-- The unit of four octets. -/
def quadruple (order : OctetOrder) (first second third fourth : UInt8) : Nat :=
  match order with
  | .big => order.pair first second * 65536 + order.pair third fourth
  | .little => order.pair third fourth * 65536 + order.pair first second

end OctetOrder

/-- Units of two octets; none if an octet is left over. -/
def pairs? (order : OctetOrder) : List UInt8 → Option (List Nat)
  | [] => some []
  | [_] => none
  | first :: second :: rest => (pairs? order rest).map (order.pair first second :: ·)

/-- Characters of four octets each; none if octets are left over or a unit is beyond the last
character. -/
def quadruples? (order : OctetOrder) : List UInt8 → Option (List Char)
  | [] => some []
  | first :: second :: third :: fourth :: rest =>
    let unit := order.quadruple first second third fourth
    if unit ≤ 0x10FFFF then (quadruples? order rest).map (charOfUnit unit :: ·) else none
  | _ => none

/-- An encoding with units wider than one octet. -/
inductive WideEncoding where
  | utf16 (order : OctetOrder)
  | utf32 (order : OctetOrder)
  deriving DecidableEq, Repr

def WideEncoding.decode? : WideEncoding → List UInt8 → Option (List Char)
  | .utf16 order, octets => (pairs? order octets).map charsOfUnits
  | .utf32 order, octets => quadruples? order octets

end Predictive.Text
