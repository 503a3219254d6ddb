import Predictive.Json.Reader
import Predictive.Text.Blank

/-! Numeric addresses: those of version 4 have four numbers, those of version 6 eight groups of
hexadecimal digits, and those of later versions tell their version. -/

set_option autoImplicit false

namespace Predictive.Gateway

open Text

def isHexDigit (c : Char) : Bool :=
  (Json.hexValue? c).isSome

/-- One of the four numbers of an IPv4 address. -/
def isOctet (text : List Char) : Bool :=
  !text.isEmpty && text.all Json.isDigit && text.length ≤ 3 && Json.decimalValue text ≤ 255 &&
    (text == ['0'] || text.head? != some '0')

def isIPv4 (text : List Char) : Bool :=
  let octets := cutAt '.' text
  octets.length == 4 && octets.all isOctet

/-- One of the eight groups of an IPv6 address. -/
def isGroup (text : List Char) : Bool :=
  !text.isEmpty && text.length ≤ 4 && text.all isHexDigit

/-- The groups of an IPv6 address, of which the last two may be written as an IPv4 address. -/
def addressGroups (text : List Char) : List (List Char) :=
  let groups := cutAt ':' text
  match groups.reverse with
  | last :: before => if isIPv4 last then before.reverse ++ [['0'], ['0']] else groups
  | [] => []

/-- The groups on one side of an omission; none if the address ends there. -/
def sideGroups (groups : List (List Char)) : List (List Char) :=
  if groups = [[]] then [] else groups

/-- Eight groups, where one row of them may be left out between two colons. -/
def areGroups (groups : List (List Char)) : Bool :=
  let inner := groups.tail.dropLast
  match inner.idxOf? [] with
  | none => groups.length == 8 && groups.all isGroup
  | some place =>
    let before := sideGroups (groups.take (place + 1))
    let after := sideGroups (groups.drop (place + 2))
    before.all isGroup && after.all isGroup && before.length + after.length < 8

def isIPv6 (text : List Char) : Bool :=
  let (address, zone) := cutOnce '%' text
  areGroups (addressGroups address) && !text.contains '/' &&
    match zone with
    | none => true
    | some zone => !zone.isEmpty && !zone.contains '%'

/-- An address of a later version: its number in hexadecimal digits, a dot and more. -/
def isFutureAddress (text : List Char) : Bool :=
  match text with
  | 'v' :: rest =>
    match cutOnce '.' rest with
    | (version, some after) => !version.isEmpty && version.all isHexDigit && !after.isEmpty
    | (_, none) => false
  | _ => false

end Predictive.Gateway
