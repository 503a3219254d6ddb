import Predictive.Gateway.Target
import Predictive.Json.Body
import Predictive.Service.Framework

/-! A gateway is one framework for the service: it takes the target of a request for a URL, and its
body for JSON in some encoding. What the service does is stated for every framework; this is the one
with which it runs. -/

set_option autoImplicit false

namespace Predictive.Gateway

open Service

/-- A body is sent as a JSON value, or as a text under some content type. -/
inductive Payload where
  | json (value : Json)
  | text (body : String) (contentType : Option String)
  deriving Repr

/-- A content type without its parameters, and without the spaces and tabs at its ends. -/
def mediaType (contentType : String) : List Char :=
  let type := (contentType.toList.takeWhile (· != ';')).dropWhile Json.isSpace
  (type.reverse.dropWhile Json.isSpace).reverse.map Text.small

def isJsonType (contentType : String) : Bool :=
  let type := mediaType contentType
  type == "application/json".toList ||
    ("application/".toList.isPrefixOf type && "+json".toList.isSuffixOf type)

namespace Payload

/-- A content type is one line. -/
def check : Payload → Except RequestError Unit
  | .json _ => .ok ()
  | .text _ contentType =>
    if contentType.any fun type => type.toList.any fun c => c == '\r' || c == '\n' then
      .error .lineBreakInHeader
    else .ok ()

/-- The value of a body that is announced as JSON, in which arrays and objects nest at most so deep. -/
def read (nesting : Nat) : Payload → Except Json.ReadError Json
  | .json value => .ok value.sorted
  | .text body contentType =>
    if contentType.any isJsonType then Json.readBody nesting body else .error .malformed

/-- What is no JSON has no value, but reading what nests too deep fails. -/
def json? (nesting : Nat) (payload : Payload) : Option Json :=
  match payload.read nesting with
  | .ok value => some value
  | .error .malformed => some .null
  | .error .tooDeep => none

end Payload

def verb (method : String) : String :=
  String.ofList (method.toList.flatMap Text.capitals)

/-- Whether the path of a static file has a name. It does not begin with a slash, and only its
first character may be a line break. -/
def isFileName : List Char → Bool
  | [] => false
  | first :: rest => first != '/' && !rest.contains '\n'

/-- What a path leads to: an endpoint, or the folder of static files, in which there are none. -/
inductive Resource where
  | endpoint (known : Endpoint)
  | file
  deriving DecidableEq, Repr

namespace Resource

/-- The resource at a path without the slash in front. -/
def ofPath? (path : List Char) : Option Resource :=
  let folder := "static/".toList
  match [Endpoint.parseProductions, .buildTable, .visualize].find? fun known =>
      known.path.toList = '/' :: path with
  | some known => some (.endpoint known)
  | none =>
    if folder.isPrefixOf path && isFileName (path.drop folder.length) then some .file else none

def verbs : Resource → List String
  | .endpoint _ => ["POST", "OPTIONS"]
  | .file => ["GET", "HEAD", "OPTIONS"]

end Resource

def bare (status : Nat) : Response :=
  ⟨status, .null⟩

/-- The endpoint that is asked with a method, or the response of a resource that is none. -/
def Resource.route (verb : String) : Resource → Endpoint ⊕ Response
  | .endpoint known => if verb = "POST" then .inl known else .inr (bare 200)
  | .file => .inr (bare (if verb = "OPTIONS" then 200 else 404))

/-- The path with each run of slashes made one. -/
def mergeSlashes : List Char → List Char
  | [] => []
  | c :: rest =>
    if c = '/' && rest.head? = some '/' then mergeSlashes rest else c :: mergeSlashes rest

/-- The schemes of sockets, which are no way to ask for anything here. -/
def isSocketScheme (scheme : List Char) : Bool :=
  scheme = "ws".toList || scheme = "wss".toList

/-- Goes on with a resource that knows the method and can be asked for under the scheme. -/
def Destination.withAccess (destination : Destination) (verb : String) (resource : Resource)
    (next : Endpoint ⊕ Response) : Endpoint ⊕ Response :=
  if !resource.verbs.contains verb then .inr (bare 405)
  else if isSocketScheme destination.scheme then .inr (bare 400)
  else next

/-- The endpoint that is asked at a destination, or the response if there is none. A path that leads
to a resource only with its slashes merged is redirected. -/
def Destination.route (verb : String) (destination : Destination) : Endpoint ⊕ Response :=
  if !destination.hasHostName then .inr (bare 400)
  else match Resource.ofPath? destination.path with
  | some resource => destination.withAccess verb resource (resource.route verb)
  | none =>
    match Resource.ofPath? (mergeSlashes destination.path) with
    | some resource => destination.withAccess verb resource (.inr (bare 308))
    | none => .inr (bare 404)

/-- The framework that opens so many arrays and objects inside of each other, and on which so many
calls can be open together. -/
def framework (nesting room : Nat) : Framework Payload where
  endpoint? request :=
    match Destination.ofTarget request.path with
    | .ok destination => (destination.route (verb request.method)).getLeft?
    | .error _ => none
  json? := Payload.json? nesting
  failed := bare 500
  room := ⟨fun calls => calls.length ≤ room, fun calls => calls.length ≤ room⟩

/-- Where a request goes, if it can be sent. -/
def destination (request : Request Payload) : Except RequestError Destination := do
  let destination ← Destination.ofTarget request.path
  request.body.check
  destination.check
  return destination

/-- The response to a request that can be sent, unless a parse does not end within a number of
steps. -/
def respond? (nesting room limit : Nat) (request : Request Payload) :
    Option (Except RequestError Response) :=
  match destination request with
  | .error cause => some (.error cause)
  | .ok destination =>
    match destination.route (verb request.method) with
    | .inl endpoint => ((framework nesting room).respond? limit endpoint request.body).map .ok
    | .inr response => some (.ok response)

end Predictive.Gateway
