import Predictive.Workflow.Basic
import Predictive.Html.Tables
import Predictive.Html.Trace
import Predictive.Html.Messages

/-! What the steps of a workflow answer, as JSON objects. -/

set_option autoImplicit false

namespace Predictive

namespace Json

def strings (texts : List String) : Json :=
  .array (texts.map .string)

def natural (value : Nat) : Json :=
  .integer value

end Json

def Symbol.namesJson (symbols : List Symbol) : Json :=
  .strings (symbols.map Symbol.name)

def Grammar.infoJson (grammar : Grammar) : Json :=
  .object
    [("terminals", Symbol.namesJson grammar.terminals),
     ("non_terminals", Symbol.namesJson grammar.nonTerminals),
     ("production_count", .natural grammar.productions.length)]

/-- What is told about a grammar whose productions were read. -/
def Grammar.productionsJson (grammar : Grammar) : Json :=
  .object
    [("success", .bool true),
     ("productions", .strings grammar.numberedProductions),
     ("start_symbols", Symbol.namesJson grammar.nonTerminals),
     ("grammar_info", grammar.infoJson)]

namespace Analysis

def setsJson (analysis : Analysis) (sets : List (Symbol × SymbolSet)) : Json :=
  .object (sets.map fun (symbol, set) => (symbol.name, .strings (analysis.sortedNames set)))

def firstJson (analysis : Analysis) : Json :=
  analysis.setsJson (analysis.firstSets.filter (·.1.isNonterminal))

def followJson (analysis : Analysis) : Json :=
  analysis.setsJson analysis.followSets

def tableInfoJson (analysis : Analysis) : Json :=
  .object
    [("non_terminals", .natural analysis.grammar.nonTerminals.length),
     ("terminals", .natural analysis.grammar.terminals.length),
     ("table_entries", .natural analysis.table.size),
     ("conflicts_count", .natural analysis.conflicts.length),
     ("is_ll1", .bool analysis.isLL1)]

def tableHtml (analysis : Analysis) : Except Error String :=
  (analysis.table.html {}).map Html.render

def conflictTexts (analysis : Analysis) : List String :=
  analysis.conflicts.map Conflict.text

def conflictsText (analysis : Analysis) : String :=
  Html.renderLines (conflictsHtml {} analysis.conflicts)

/-- What is told about a table, apart from its conflicts. -/
def tableFields (analysis : Analysis) : Except Error (List (String × Json)) := do
  return [("success", .bool true),
    ("parse_table_html", .string (← analysis.tableHtml)),
    ("first_follow_html", .string analysis.setsHtml.render),
    ("first_sets", analysis.firstJson),
    ("follow_sets", analysis.followJson),
    ("start_symbol", .string analysis.grammar.start.name),
    ("table_info", analysis.tableInfoJson)]

def conflictFields (analysis : Analysis) : List (String × Json) :=
  [("conflicts", .strings analysis.conflictTexts),
   ("conflicts_html", .string analysis.conflictsText)]

def tableJson (analysis : Analysis) : Except Error Json := do
  return .object ((← analysis.tableFields) ++ analysis.conflictFields)

end Analysis

/-- What is told about a parse; an input that is not accepted comes with its first error. -/
def ParseResult.json (result : ParseResult) (input : String) : Json :=
  .object <|
    [("success", .bool result.success),
     ("verdict", .string result.verdict.label),
     ("verdict_text", .string result.text),
     ("trace_html", .string (traceHtml {} traceTitle result.trace).render),
     ("trace_steps", .natural result.trace.length),
     ("issues", .strings (result.issues.map ParseIssue.message)),
     ("input_string", .string input)] ++
    if result.success then []
    else
      [("error", .string result.errorMessage),
       ("error_position", .integer ((result.issues.head?.map ParseIssue.position).getD (-1)))]

namespace Workflow

/-- What is told about a step that is refused. -/
def refusal (cause : WorkflowError) (fields : List (String × Json)) : Json :=
  .object ([("success", .bool false), ("error", .string cause.message)] ++ fields)

def productionsAnswer : Except WorkflowError Grammar → Json
  | .ok grammar => grammar.productionsJson
  | .error cause => refusal cause [("productions", .array []), ("start_symbols", .array [])]

/-- What is told about a table, if it can be shown, or about the step that refused it. -/
def startAnswer : Except WorkflowError Analysis → Except Error Json
  | .ok analysis => analysis.tableJson
  | .error cause => .ok (refusal cause [])

def inputAnswer (input : String) : Except WorkflowError ParseResult → Json
  | .ok result => result.json input
  | .error (.unreadableInput cause) =>
    refusal (.unreadableInput cause) [("input_string", .string input)]
  | .error cause => refusal cause []

/-- Where a workflow stands, and which steps are open. -/
def stateAnswer (workflow : Workflow) : Json :=
  .object <|
    match workflow.stage with
    | .initial =>
      [("current_state", .string "initial"),
       ("available_actions", .strings ["parse_productions"]),
       ("description", .string "Ready to parse CFG productions")]
    | .productionsParsed =>
      [("current_state", .string "productions_parsed"),
       ("available_actions", .strings ["set_start_symbol"]),
       ("description", .string "Productions parsed, ready to select start symbol"),
       ("productions_count", .natural workflow.productions.length),
       ("potential_start_symbols", .strings workflow.startChoices)]
    | .tableBuilt =>
      [("current_state", .string "parse_table_built"),
       ("available_actions", .strings ["parse_input_string", "set_start_symbol"]),
       ("description", .string "Parse table built, ready to parse input strings"),
       ("start_symbol", (workflow.start.map Json.string).getD .null),
       ("table_ready", .bool true),
       ("is_ll1", .bool (workflow.analysis.any Analysis.isLL1))]

end Workflow

end Predictive
