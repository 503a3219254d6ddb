import Predictive.Analysis
import Predictive.Json.Basic

/-! A workflow leads from a grammar text to parsed inputs in three steps: the productions are
read, a start symbol is chosen among the non-terminals and the table is built, and inputs are
parsed with it. Every step may be repeated, and every step may be refused. -/

set_option autoImplicit false

namespace Predictive

inductive WorkflowStage where
  | initial
  | productionsParsed
  | tableBuilt
  deriving DecidableEq, Repr

inductive WorkflowError where
  | unreadableGrammar (cause : GrammarError)
  | productionsMissing
  | invalidStart (start : String) (choices : List String)
  | tableFailed (cause : Error)
  | tableMissing
  | unreadableInput (cause : Error)
  deriving DecidableEq, Repr

def WorkflowError.message : WorkflowError → String
  | .unreadableGrammar cause => "Grammar parsing failed: " ++ cause.message
  | .productionsMissing => "Must parse productions first before setting start symbol"
  | .invalidStart start choices =>
    "Invalid start symbol '" ++ start ++ "'. Must be one of: " ++ Text.quoteList choices
  | .tableFailed cause => "Parse table generation failed: " ++ cause.message
  | .tableMissing => "Parse table must be built before parsing input strings"
  | .unreadableInput cause => "Input parsing failed: " ++ cause.message

def Grammar.numberedProductions (grammar : Grammar) : List String :=
  grammar.productions.map fun production => toString production.id ++ ". " ++ production.text

/-- The text and the options may be replaced at any time. What a step leaves behind stays until a
later step replaces it, so an analysis outlives the productions that it was made of. -/
structure Workflow where
  text : String
  options : GrammarOptions
  stage : WorkflowStage := .initial
  grammar : Option Grammar := none
  productions : List String := []
  startChoices : List String := []
  start : Option String := none
  analysis : Option Analysis := none

namespace Workflow

def new (text : String) (options : GrammarOptions) : Workflow :=
  { text, options }

/-- The workflow whose productions were read. -/
def read (workflow : Workflow) (grammar : Grammar) : Workflow :=
  { workflow with
    grammar := some grammar
    productions := grammar.numberedProductions
    startChoices := grammar.nonTerminals.map Symbol.name
    stage := .productionsParsed }

/-- The workflow whose start symbol was chosen. -/
def built (workflow : Workflow) (grammar : Grammar) (start : String) (analysis : Analysis) :
    Workflow :=
  { workflow with
    grammar := some grammar
    analysis := some analysis
    start := some start
    stage := .tableBuilt }

/-- Reads the productions of the text. What was there before is replaced only on success. -/
def parseProductions (workflow : Workflow) : Except WorkflowError Grammar × Workflow :=
  match Grammar.ofText workflow.options workflow.text none with
  | .error cause => (.error (.unreadableGrammar cause), workflow)
  | .ok grammar => (.ok grammar, workflow.read grammar)

/-- Builds the table of a grammar from a start symbol. The grammar takes its new start before the
strategy is looked up, and keeps it if there is no such strategy. -/
def buildTable (workflow : Workflow) (grammar : Grammar) (start : String) :
    Except WorkflowError Analysis × Workflow :=
  match grammar.withStart (.named start) with
  | .error cause => (.error (.tableFailed (.grammar cause)), workflow)
  | .ok grammar =>
    match Strategy.ofName workflow.options.strategy with
    | .error cause => (.error (.tableFailed cause), { workflow with grammar := some grammar })
    | .ok strategy =>
      let analysis := Analysis.new grammar strategy
      (.ok analysis, workflow.built grammar start analysis)

/-- Chooses the start symbol, which must be the name of a non-terminal, and builds the table. -/
def setStart (workflow : Workflow) (start : Json) : Except WorkflowError Analysis × Workflow :=
  if workflow.stage = .initial then (.error .productionsMissing, workflow)
  else
    match workflow.grammar, start with
    -- never: past the first stage there is a grammar
    | none, _ => (.error .productionsMissing, workflow)
    | some grammar, .string name =>
      if workflow.startChoices.contains name then workflow.buildTable grammar name
      else (.error (.invalidStart name workflow.startChoices), workflow)
    | some _, start => (.error (.invalidStart start.text workflow.startChoices), workflow)

/-- Parses an input, if the parse ends within a number of steps. -/
def parseInput? (workflow : Workflow) (limit : Nat) (input : String) :
    Option (Except WorkflowError ParseResult) :=
  match workflow.stage, workflow.analysis with
  | .tableBuilt, some analysis =>
    (analysis.table.parseText? limit input).map fun
      | .ok result => .ok result
      | .error cause => .error (.unreadableInput cause)
  | _, _ => some (.error .tableMissing)

end Workflow

end Predictive
