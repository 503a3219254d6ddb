import Predictive.Grammar.Production

/-! What a parse leaves behind: the steps that were taken, the errors that were skipped and a
verdict. -/

set_option autoImplicit false

namespace Predictive

inductive ActionKind where
  | matched
  | epsilon
  | expand
  | errorSkip
  | accept
  | stall
  deriving DecidableEq, Repr

def ActionKind.label : ActionKind → String
  | .matched => "Matched"
  | .epsilon => "Epsilon"
  | .expand => "Expand"
  | .errorSkip => "Error-skip"
  | .accept => "Accept"
  | .stall => "Stall"

/-- What an automaton does in one step, with the production where there is one. -/
structure Action where
  kind : ActionKind
  production : Option Production := none
  deriving DecidableEq, Repr

/-- An expansion is shown by what it puts on the stack. -/
def Action.text (action : Action) : String :=
  match action.kind, action.production with
  | .expand, some production => production.rhsText
  | kind, _ => kind.label

/-- A configuration and the action that was taken from it. What is consumed is listed latest
first, and the stack from its top. -/
structure ParseStep where
  number : Int
  consumed : List Symbol
  stack : List Symbol
  remaining : List Symbol
  action : Action
  deriving DecidableEq, Repr

namespace ParseStep

def consumedText (step : ParseStep) : String :=
  spacedNames step.consumed.reverse

/-- The stack from its bottom. -/
def stackText (step : ParseStep) : String :=
  spacedNames step.stack.reverse

def remainingText (step : ParseStep) : String :=
  spacedNames step.remaining

def text (step : ParseStep) : String :=
  "Step " ++ toString step.number ++ ": Consumed=[" ++ step.consumedText ++ "] Stack=[" ++
    step.stackText ++ "] Input=[" ++ step.remainingText ++ "] Action=" ++ step.action.text

end ParseStep

/-- An error that was skipped: which step skipped it, where in the input, and what the automaton
had instead of what it expected. -/
structure ParseIssue where
  stepNumber : Int
  position : Int
  top : Symbol
  lookahead : Symbol
  expected : List Symbol
  message : String
  deriving DecidableEq, Repr

inductive Verdict where
  | accept
  | reject
  | rejectWithRecovery
  deriving DecidableEq, Repr

def Verdict.label : Verdict → String
  | .accept => "accept"
  | .reject => "reject"
  | .rejectWithRecovery => "reject_with_recovery"

structure ParseResult where
  verdict : Verdict
  trace : List ParseStep := []
  issues : List ParseIssue := []
  deriving DecidableEq, Repr

namespace ParseResult

def success (result : ParseResult) : Bool :=
  result.verdict = .accept

def recovered (result : ParseResult) : Bool :=
  result.verdict = .rejectWithRecovery

/-- The symbol on which a run got stuck, if it did. -/
def stalledOn? (result : ParseResult) : Option String :=
  match result.trace.getLast? with
  | some step =>
    if step.action.kind = .stall then some ((step.stack.head?.map Symbol.name).getD "") else none
  | none => none

/-- The first error, or why there is no verdict of acceptance without one. -/
def errorMessage (result : ParseResult) : String :=
  if result.success then ""
  else match result.issues, result.stalledOn? with
    | issue :: _, _ => issue.message
    | [], some name =>
      "Parser stalled expanding '" ++ name ++ "' without consuming input (left recursion?)"
    | [], none => "Input is not parsable with the grammar"

def text (result : ParseResult) : String :=
  match result.verdict with
  | .accept => "Accept"
  | .rejectWithRecovery =>
    "Reject (accepted with error recovery, " ++ toString result.issues.length ++ " error(s))"
  | .reject => "Reject: " ++ result.errorMessage

end ParseResult

end Predictive
