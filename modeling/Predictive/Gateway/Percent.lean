import Predictive.Json.Reader
import Predictive.Text.Case
import Predictive.Text.Quoted
import Predictive.Text.Word

/-! Percent codes: the octets of characters that have no place in a URL, each written as a percent
sign and two hexadecimal digits. -/

set_option autoImplicit false

namespace Predictive.Gateway

open Text

/-- A text with the codes of ASCII characters decoded. What is coded otherwise is left, since no
route has it. -/
def decodePercent : List Char → List Char
  | '%' :: first :: second :: rest =>
    match Json.hexValue? first, Json.hexValue? second with
    | some high, some low =>
      if high < 8 then Char.ofNat (16 * high + low) :: decodePercent rest
      else '%' :: decodePercent (first :: second :: rest)
    | _, _ => '%' :: decodePercent (first :: second :: rest)
  | c :: rest => c :: decodePercent rest
  | [] => []

def percentCode (octet : Nat) : List Char :=
  '%' :: (hexDigits 2 octet).map capital

namespace UserInfo

/-- The characters that stand as they are in what tells who asks. A percent sign does, since the
text may have codes already. -/
def isPlain (c : Char) : Bool :=
  isAsciiLetter c || Json.isDigit c || "_.-~%!$&'()*+,;=".toList.contains c

/-- A text with every other character coded. -/
def encode (text : List Char) : List Char :=
  text.flatMap fun c =>
    if isPlain c then [c]
    else (String.utf8EncodeChar c).flatMap fun octet => percentCode octet.toNat

/-- The octets that stay coded: controls, spaces, and what would change the meaning of a URL. -/
def staysCoded (octet : Nat) : Bool :=
  octet ≤ 32 || octet == 127 || "%:@/?#".toList.contains (Char.ofNat octet)

/-- The octets of an ASCII text with its codes decoded, but for those that stay. -/
def octets : List Char → List Nat
  | '%' :: first :: second :: rest =>
    match Json.hexValue? first, Json.hexValue? second with
    | some high, some low =>
      if staysCoded (16 * high + low) then 37 :: first.toNat :: second.toNat :: octets rest
      else (16 * high + low) :: octets rest
    | _, _ => 37 :: octets (first :: second :: rest)
  | c :: rest => c.toNat :: octets rest
  | [] => []

/-- The code point of octets in UTF-8: the first without its mark, and those that follow. It is at
least `lowest`, or fewer octets would do. -/
def codePoint? (first lowest : Nat) (others : List Nat) : Option Nat :=
  let point := others.foldl (fun point octet => 64 * point + (octet - 128)) first
  if others.all (fun octet => 128 ≤ octet && octet < 192) && lowest ≤ point &&
      point ≤ 0x10FFFF && !isHighSurrogate point && !isLowSurrogate point then
    some point
  else none

/-- The code point that octets begin with, and how many octets behind the first belong to it. -/
def firstPoint? (octet : Nat) (rest : List Nat) : Option (Nat × Nat) :=
  let following (count mark lowest : Nat) : Option (Nat × Nat) :=
    if rest.length < count then none
    else (codePoint? (octet - mark) lowest (rest.take count)).map fun point => (point, count)
  if octet < 128 then some (octet, 0)
  else if octet < 192 then none
  else if octet < 224 then following 1 192 0x80
  else if octet < 240 then following 2 224 0x800
  else if octet < 248 then following 3 240 0x10000
  else none

/-- The text of octets in UTF-8. An octet that belongs to no character is coded again. -/
def ofOctets : List Nat → List Char
  | [] => []
  | octet :: rest =>
    match firstPoint? octet rest with
    | some (point, count) => Char.ofNat point :: ofOctets (rest.drop count)
    | none => percentCode octet ++ ofOctets rest
  termination_by octets => octets.length
  decreasing_by
    · simp only [List.length_cons, List.length_drop]
      exact Nat.lt_succ_of_le (Nat.sub_le ..)
    · exact Nat.lt_succ_self _

/-- A coded ASCII text as it is shown. -/
def decode (text : List Char) : List Char :=
  ofOctets (octets text)

end UserInfo

end Predictive.Gateway
