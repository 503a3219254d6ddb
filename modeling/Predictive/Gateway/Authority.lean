import Predictive.Gateway.Address
import Predictive.Gateway.HostName
import Predictive.Gateway.Percent

/-! The authority of a URL: who asks, which host, and which port. An IPv6 address stands in
brackets, since it has colons of its own. -/

set_option autoImplicit false

namespace Predictive.Gateway

open Text

/-- Why a request cannot be sent at all. -/
inductive RequestError where
  | unmatchedBracket
  | malformedFutureAddress
  | bracketedIPv4
  | invalidAddress (address : String)
  | hiddenDelimiter (authority : String)
  | hostNotSent (cause : HostNameError)
  | hostNotRead (cause : HostNameError)
  | invalidPort (port : String)
  | longPort (digits : Nat)
  | portOutOfRange
  | lineBreakInHeader
  deriving DecidableEq, Repr

def RequestError.message : RequestError → String
  | .unmatchedBracket => "Invalid IPv6 URL"
  | .malformedFutureAddress => "IPvFuture address is invalid"
  | .bracketedIPv4 => "An IPv4 address cannot be in brackets"
  | .invalidAddress address =>
    Text.quote address ++ " does not appear to be an IPv4 or IPv6 address"
  | .hiddenDelimiter authority =>
    "netloc '" ++ authority ++ "' contains invalid characters under NFKC normalization"
  | .hostNotSent cause => cause.message "encoding"
  | .hostNotRead cause => cause.message "decoding"
  | .invalidPort port => "Port could not be cast to integer value as " ++ Text.quote port
  | .longPort digits =>
    "Exceeds the limit (4300 digits) for integer string conversion: value has " ++
      toString digits ++ " digits; use sys.set_int_max_str_digits() to increase the limit"
  | .portOutOfRange => "Port out of range 0-65535"
  | .lineBreakInHeader => "Header values must not contain newline characters."

/-- Whether a text may stand between brackets. -/
def checkBracketed (text : List Char) : Except RequestError Unit :=
  if text.head? = some 'v' then
    if isFutureAddress text then .ok () else .error .malformedFutureAddress
  else if isIPv4 text then .error .bracketedIPv4
  else if isIPv6 text then .ok ()
  else .error (.invalidAddress (String.ofList text))

/-- The text between the brackets of a host, with nothing before them and at most a port behind. A
host without brackets, which stand elsewhere, must be an address as well. -/
def bracketed (host : List Char) : Except RequestError (List Char) :=
  match cutOnce '[' host with
  | (before, some rest) =>
    let (address, behind) := cutOnce ']' rest
    if !before.isEmpty || behind.any fun port => port.head?.any (· != ':') then
      .error .unmatchedBracket
    else .ok address
  | (_, none) => .ok (cutOnce ':' host).1

/-- Brackets come in pairs, with a numeric address between them. -/
def checkBrackets (authority : List Char) : Except RequestError Unit :=
  match authority.contains '[', authority.contains ']' with
  | true, true => do checkBracketed (← bracketed (afterLast '@' authority))
  | false, false => .ok ()
  | _, _ => .error .unmatchedBracket

/-- The characters whose compatibility forms have a delimiter of URLs in them. -/
def hiddenDelimiters : List Char :=
  ['⁇', '⁈', '⁉', '℀', '℁', '℅', '℆', '⩴', '︓', '︖', '﹕', '﹖', '﹟', '﹫', '＃', '／', '：', '？', '＠']

def checkDelimiters (authority : List Char) : Except RequestError Unit :=
  if authority.any hiddenDelimiters.contains then
    .error (.hiddenDelimiter (String.ofList authority))
  else .ok ()

/-- Whether a text can be an authority at all. -/
def checkAuthority (authority : List Char) : Except RequestError Unit := do
  checkBrackets authority
  checkDelimiters authority

/-- The parts of an authority; each may be empty. -/
structure Authority where
  user : List Char
  password : List Char
  host : List Char
  port : List Char
  deriving DecidableEq, Repr

namespace Authority

/-- A host in small letters. The zone of an address is left as it is. -/
def smallHost (host : List Char) : List Char :=
  (host.takeWhile (· != '%')).map small ++ host.dropWhile (· != '%')

def ofText (text : List Char) : Authority :=
  let place := afterLast '@' text
  let (user, password) := cutOnce ':' (text.take (text.length - place.length - 1))
  let (host, port) :=
    match cutOnce '[' place with
    | (_, some rest) =>
      let (host, behind) := cutOnce ']' rest
      (host, (cutOnce ':' (behind.getD [])).2)
    | (_, none) => cutOnce ':' place
  ⟨user, password.getD [], smallHost host, port.getD []⟩

def portNumber? (authority : Authority) : Except RequestError (Option Nat) :=
  let port := authority.port
  if port.isEmpty then .ok none
  else if !port.all Json.isDigit then .error (.invalidPort (String.ofList port))
  else if 4300 < port.length then .error (.longPort port.length)
  else if 65535 < Json.decimalValue port then .error .portOutOfRange
  else .ok (some (Json.decimalValue port))

/-- The text of an authority whose parts are written in some way. There is no password without a
user, and port zero is no port. -/
def write (userInfo : List Char → List Char)
    (hostName : List Char → Except RequestError (List Char)) (authority : Authority) :
    Except RequestError (List Char) := do
  let host ← hostName authority.host
  let port ← authority.portNumber?
  let password := if authority.password.isEmpty then [] else ':' :: userInfo authority.password
  return (if authority.user.isEmpty then [] else userInfo authority.user ++ password ++ ['@']) ++
    (if host.contains ':' then '[' :: host ++ [']'] else host) ++
    match port with
    | none | some 0 => []
    | some number => ':' :: (toString number).toList

/-- The authority as it is sent, in ASCII. -/
def sent (authority : Authority) : Except RequestError (List Char) :=
  authority.write UserInfo.encode fun host => (HostName.encode host).mapError .hostNotSent

/-- The authority that was sent, as it is shown. -/
def shown (authority : Authority) : Except RequestError (List Char) :=
  authority.write UserInfo.decode fun host => (HostName.decode host).mapError .hostNotRead

end Authority

end Predictive.Gateway
