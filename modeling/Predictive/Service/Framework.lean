import Predictive.Service.Handler

/-! The framework that the service runs on. It leads a request to an endpoint, reads the value of its
body, and answers where an endpoint fails; it and the interpreter below it are known by what the
service expects of them. -/

set_option autoImplicit false

namespace Predictive.Service

/-- A request, with a body of some kind. -/
structure Request (Body : Type) where
  path : String
  method : String
  body : Body
  deriving Repr

structure Framework (Body : Type) where
  /-- The endpoint that a request is for, if it is for any. -/
  endpoint? : Request Body → Option Endpoint
  /-- The value of a body, null if it has none; nothing where reading it fails. -/
  json? : Body → Option Json
  /-- The response where an endpoint fails. -/
  failed : Response
  /-- The calls for which the interpreter has room below those of an endpoint. -/
  room : CallRoom

namespace Framework

variable {Body : Type}

/-- What the service expects of a framework. -/
structure Lawful (framework : Framework Body) : Prop where
  routed : ∀ (request : Request Body) (endpoint : Endpoint), request.path = endpoint.path →
    request.method = "POST" → framework.endpoint? request = some endpoint
  /-- Texts can be sent, under keys in their order. -/
  sends : ∀ texts : List (String × String), texts.Pairwise (fun left right => left.1 < right.1) →
    ∃ body, framework.json? body = some (.object (Fields.ofTexts texts))
  failed : framework.failed.status = 500
  bounded : framework.room.Bounded

/-- The fields of a body, if it can be read and has any. -/
def fields? (framework : Framework Body) (body : Body) : Option Fields :=
  (framework.json? body).bind Fields.ofJson?

/-- The response of an endpoint to a body, unless a parse does not end within a number of steps. That
a body has no fields is not among what an endpoint expects to fail. -/
def respond? (framework : Framework Body) (limit : Nat) (endpoint : Endpoint) (body : Body) :
    Option Response :=
  match framework.fields? body with
  | some fields => endpoint.respond? framework.room limit fields
  | none => some framework.failed

/-- The response to a request, once its parse has ended. -/
def Responds (framework : Framework Body) (request : Request Body) (response : Response) : Prop :=
  ∃ endpoint, framework.endpoint? request = some endpoint ∧
    ∃ bound, ∀ limit, bound ≤ limit →
      framework.respond? limit endpoint request.body = some response

end Framework

end Predictive.Service
