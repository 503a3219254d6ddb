import Predictive.Json.Reader
import Predictive.Text.Encoding

/-! The encoding of a JSON body. JSON begins with an ASCII character, so the zeros among the first
octets tell the encoding. -/

set_option autoImplicit false

namespace Predictive.Json

open Text

/-- The encoding that the first octets tell, unless they tell one with units of one octet. -/
def wideEncoding? : List UInt8 → Option WideEncoding
  | first :: second :: third :: fourth :: _ =>
    if first = 0 then some (if second = 0 then .utf32 .big else .utf16 .big)
    else if second = 0 then
      some (if third = 0 ∧ fourth = 0 then .utf32 .little else .utf16 .little)
    else none
  | [first, second] =>
    if first = 0 then some (.utf16 .big)
    else if second = 0 then some (.utf16 .little)
    else none
  | _ => none

/-- The characters of a body that is sent in UTF-8 but may be meant in another encoding. A byte
order mark may stand in front of UTF-8 only. -/
def bodyChars? (body : List Char) : Option (List Char) :=
  let octets := body.flatMap String.utf8EncodeChar
  match wideEncoding? octets with
  | some encoding => encoding.decode? octets
  | none =>
    some <| match body with
      | '\ufeff' :: rest => rest
      | chars => chars

/-- The value of a body in which containers nest at most `depth` deep. -/
def readBody (depth : Nat) (body : String) : Except ReadError Json :=
  match bodyChars? body.toList with
  | some chars => read depth chars
  | none => .error .malformed

end Predictive.Json
