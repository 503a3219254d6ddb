import Predictive.Gateway.Authority

/-! The target of a request: a URL, or the part of one from some point on. -/

set_option autoImplicit false

namespace Predictive.Gateway

structure Target where
  scheme : List Char
  authority : List Char
  path : List Char
  deriving DecidableEq, Repr

namespace Target

def isLineBreakOrTab (c : Char) : Bool :=
  c == '\t' || c == '\r' || c == '\n'

/-- The text of a target without what does not count in it: blanks and controls in front, and tabs
and line breaks anywhere. -/
def clean (text : List Char) : List Char :=
  (text.dropWhile (·.toNat ≤ 32)).filter (!isLineBreakOrTab ·)

def continuesScheme (c : Char) : Bool :=
  Text.isAsciiLetter c || Json.isDigit c || c == '+' || c == '-' || c == '.'

/-- The scheme in lower case, if there is one, and what follows its colon. -/
def splitScheme (text : List Char) : List Char × List Char :=
  match Text.cutOnce ':' text with
  | (first :: others, some rest) =>
    if Text.isAsciiLetter first && others.all continuesScheme then
      ((first :: others).map Text.small, rest)
    else ([], text)
  | _ => ([], text)

def endsAuthority (c : Char) : Bool :=
  c == '/' || c == '?' || c == '#'

def endsPath (c : Char) : Bool :=
  c == '?' || c == '#'

/-- The authority, which stands behind two slashes, and what follows it. -/
def splitAuthority : List Char → List Char × List Char
  | '/' :: '/' :: rest =>
    (rest.takeWhile (!endsAuthority ·), rest.dropWhile (!endsAuthority ·))
  | text => ([], text)

/-- The parts of a target; its query and its fragment are left out. -/
def split (text : List Char) : Except RequestError Target := do
  let (scheme, rest) := splitScheme (clean text)
  let (authority, rest) := splitAuthority rest
  checkAuthority authority
  return ⟨scheme, authority, rest.takeWhile (!endsPath ·)⟩

/-- The parts as one text, with the authority as it is sent. -/
def sent (target : Target) : Except RequestError (List Char) := do
  let authority ← (Authority.ofText target.authority).sent
  return (if target.scheme.isEmpty then [] else target.scheme ++ [':']) ++
    (if authority.isEmpty then [] else '/' :: '/' :: authority) ++ target.path

end Target

/-- Where a request goes: under which scheme, to which authority, and to which path without the
slashes in front. -/
structure Destination where
  scheme : List Char
  authority : List Char
  path : List Char
  deriving DecidableEq, Repr

namespace Destination

/-- The destination of a target. Its path is taken for a target once more when the request is sent
and once more when it is written, so each time two slashes in front begin another authority; only
that of the first time is asked. -/
def ofTarget (text : String) : Except RequestError Destination := do
  let asked ← Target.split text.toList
  let rest ← Target.split asked.path
  let path ← (← Target.split rest.path).sent
  let authority ← (Authority.ofText asked.authority).sent
  checkAuthority authority
  return ⟨asked.scheme, authority, (decodePercent path).dropWhile (· == '/')⟩

/-- The text for the port that a scheme has of its own. -/
def standardPort (scheme : List Char) : List Char :=
  if ["", "http", "ws"].contains (String.ofList scheme) then ":80".toList
  else if ["https", "wss"].contains (String.ofList scheme) then ":443".toList
  else []

/-- The authority, where the port that the scheme has of its own is left out. -/
def host (destination : Destination) : List Char :=
  let port := standardPort destination.scheme
  if port.isSuffixOf destination.authority then
    destination.authority.take (destination.authority.length - port.length)
  else destination.authority

/-- The host can be shown as it was asked for. -/
def check (destination : Destination) : Except RequestError Unit := do
  checkAuthority (← (Authority.ofText destination.host).shown)

/-- Whether the host, up to its first colon, has the labels of a host name. -/
def hasHostName (destination : Destination) : Bool :=
  (HostName.encode (Text.cutOnce ':' destination.host).1).isOk

end Destination

end Predictive.Gateway
