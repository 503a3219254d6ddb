import Predictive.Workflow.Answer

/-! The service: three endpoints that read a grammar, build its table, and parse an input with it.
A request that cannot be answered gets a status of 400 with a message. Where the type of a field is
one that no step expects, where there is no room for the calls that an analysis takes, and where a
table cannot be shown, the status is 500. -/

set_option autoImplicit false

namespace Predictive.Service

structure Response where
  status : Nat
  body : Json
  deriving Repr

abbrev Fields := List (String × Json)

namespace Fields

/-- The fields that the value of a body has. A value that counts as empty has none; any other value
has fields only if it is an object. -/
def ofJson? : Json → Option Fields
  | .object members => some members
  | value => if value.isTruthy then none else some []

/-- The fields whose values are texts. -/
def ofTexts (texts : List (String × String)) : Fields :=
  texts.map fun (key, text) => (key, .string text)

/-- The value of a field; an absent field is null. -/
def value (fields : Fields) (key : String) : Json :=
  (Json.member? fields key).getD .null

def flag (fields : Fields) (key : String) (default : Bool) : Bool :=
  ((Json.member? fields key).map Json.isTruthy).getD default

def options (fields : Fields) : Except Error GrammarOptions :=
  let strategy := fields.value "strategy"
  GrammarOptions.checked
    { compactSymbols := fields.flag "compact_symbols" false
      strictNonterminals := fields.flag "strict_nonterminals" true
      strategy := if strategy.isTruthy then strategy.text else "fixed_point" }

end Fields

def failure (message : String) : Response :=
  ⟨400, .object [("error", .string message)]⟩

def failureOf (kind message : String) : Response :=
  ⟨400, .object [("error", .string message), ("error_type", .string kind)]⟩

/-- A step of the workflow was refused. -/
def refused (cause : WorkflowError) : Response :=
  ⟨400, .object [("success", .bool false), ("error", .string cause.message)]⟩

/-- An error that no step expects. -/
def systemError : Response :=
  ⟨500, .object [("error_type", .string "system_error")]⟩

def success (fields : List (String × Json)) : Response :=
  ⟨200, .object fields⟩

/-- An answer in which something cannot be shown is an error that no step expects. -/
def shownOrError : Except Error Response → Response
  | .ok response => response
  | .error _ => systemError

/-- Continues with a grammar text and options, which every endpoint checks alike. -/
def withGrammarText (fields : Fields) (next : String → GrammarOptions → Option Response) :
    Option Response :=
  match fields.options with
  | .error cause => some (failureOf "config_error" cause.message)
  | .ok options =>
    match fields.value "cfg" with
    | .string text => next text options
    | _ => some systemError

def parseProductions (fields : Fields) : Option Response :=
  if !(fields.value "cfg").isTruthy then some (failure "No CFG provided")
  else withGrammarText fields fun text options =>
    some <|
      match (Workflow.new text options).parseProductions.1 with
      | .error cause => refused cause
      | .ok grammar => ⟨200, grammar.productionsJson⟩

/-- What is told about a table. Conflicts are told only if there are any. -/
def tableResponse (analysis : Analysis) : Except Error Response := do
  return success <| (← analysis.tableFields) ++
    if analysis.isLL1 then [] else analysis.conflictFields

/-- Builds the table of a grammar from a start symbol. -/
def buildTable (room : CallRoom) (fields : Fields) : Option Response :=
  let start := fields.value "start_symbol"
  if !(fields.value "cfg").isTruthy then some (failure "No CFG provided")
  else if !start.isTruthy then some (failure "No start symbol provided")
  else withGrammarText fields fun text options =>
    some <|
      match (Workflow.new text options).parseProductions with
      | (.error cause, _) => refused cause
      | (.ok _, workflow) =>
        match (workflow.setStart start).1 with
        | .error cause => refused cause
        | .ok analysis =>
          if analysis.fits room then shownOrError (tableResponse analysis) else systemError

/-- The analysis from a start symbol as it was sent. A start symbol that is no text has no
productions, and an array or an object cannot be looked up at all. -/
def analyze (room : CallRoom) (options : GrammarOptions) (text : String) (start : Json) :
    Except Response Analysis :=
  let wanted := match start with
    | .string name => some name
    | _ => none
  match Analysis.ofText options text wanted with
  | .error cause => .error (failureOf "grammar_error" cause.message)
  | .ok analysis =>
    match start with
    | .null | .string _ => if analysis.fits room then .ok analysis else .error systemError
    | .array _ | .object _ => .error systemError
    | start =>
      .error (failureOf "grammar_error" (GrammarError.startWithoutProductions start.text).message)

/-- The names of an input as it was sent, if its tokens come to an end. An array of texts is read
element by element, which succeeds only where there is no terminal to compare with, or with blank
elements. -/
def inputNames? (analysis : Analysis) : Json → Option (Except Response (List String))
  | .string text =>
    (analysis.table.tokenize? text).map fun tokens => .ok (tokens.map Token.type)
  | .object [] => some (.ok [])
  | .array elements => some <|
    match elements.mapM fun | .string text => some text | _ => none with
    | none => .error systemError
    | some texts =>
      let names := texts.filter fun text => text.isEmpty || !text.toList.all Text.isBlank
      if names.isEmpty || analysis.grammar.terminals.isEmpty then .ok names
      else .error systemError
  | _ => some (.error systemError)

/-- What is told about an analysis and a parse. -/
def visualization (analysis : Analysis) (result : ParseResult) : Except Error Response := do
  return success
    [("verdict", .string result.verdict.label),
     ("verdictText", .string result.text),
     ("success", .bool result.success),
     ("issues", .strings (result.issues.map ParseIssue.message)),
     ("traceSteps", .natural result.trace.length),
     ("parseTraceHtml", .string (traceHtml {} traceTitle result.trace).render),
     ("verdictHtml", .string result.verdictHtml.render),
     ("parseTableHtml", .string (← analysis.tableHtml)),
     ("firstFollowHtml", .string analysis.setsHtml.render),
     ("productionsHtml", .string analysis.grammar.productionsHtml.render),
     ("startSymbol", .string analysis.grammar.start.name),
     ("conflicts", .strings analysis.conflictTexts)]

/-- What a parse is answered with. Of all errors, only names that are reserved are expected. -/
def parseResponse (analysis : Analysis) : Except Error ParseResult → Response
  | .ok result => shownOrError (visualization analysis result)
  | .error (.reservedInput name) => failureOf "input_error" (Error.reservedInput name).message
  | .error _ => systemError

/-- Analyzes a grammar and parses an input, if its tokens come to an end and the parse ends within a
number of steps. A rejected input is an answer like an accepted one. -/
def visualize (room : CallRoom) (limit : Nat) (fields : Fields) : Option Response :=
  let input := fields.value "input"
  if !(fields.value "cfg").isTruthy then some (failure "No CFG provided")
  else if input matches .null then some (failure "No input string provided")
  else withGrammarText fields fun text options =>
    match analyze room options text (fields.value "start_symbol") with
    | .error response => some response
    | .ok analysis =>
      (inputNames? analysis input).bind fun
        | .error response => some response
        | .ok names => (analysis.table.parseNames? limit names).map (parseResponse analysis)

inductive Endpoint where
  | parseProductions
  | buildTable
  | visualize
  deriving DecidableEq, Repr

namespace Endpoint

/-- Where an endpoint is asked, with the method POST. -/
def path : Endpoint → String
  | .parseProductions => "/parse-cfg-productions"
  | .buildTable => "/build-parse-table"
  | .visualize => "/visualize-parser"

def respond? (room : CallRoom) (limit : Nat) (fields : Fields) : Endpoint → Option Response
  | .parseProductions => Service.parseProductions fields
  | .buildTable => Service.buildTable room fields
  | .visualize => Service.visualize room limit fields

end Endpoint

end Predictive.Service
