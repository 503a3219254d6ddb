import Predictive.Grammar.Production

/-! Why a grammar is refused, and why a question about one has no answer. -/

set_option autoImplicit false

namespace Predictive

/-- Why no grammar is built, or why a name is not a symbol of the grammar at hand. -/
inductive GrammarError where
  | noProductions
  | noRules
  | unreadableLine (line : String)
  | reservedOnLeft (name : String)
  | declaredWithProductions (names : List String)
  | reservedInRule (name lhs : String)
  | undefinedSymbol (name lhs : String)
  | undefinedNonterminal (name lhs : String)
  | lhsNotNonterminal (symbol : Symbol)
  | duplicateId (id : Int)
  | reservedOnRight (symbol : Symbol) (production : Production)
  | undefinedOnRight (symbol : Symbol) (production : Production)
  | startWithoutProductions (name : String)
  | invalidStart (name : String) (choices : List String)
  | terminalAndNonterminal (name : String)
  | unknownSymbol (name : String)
  deriving DecidableEq, Repr

def GrammarError.message : GrammarError → String
  | .noProductions => "Grammar has no productions"
  | .noRules => "No productions found in grammar text"
  | .unreadableLine line => "Cannot parse grammar line: '" ++ line ++ "'"
  | .reservedOnLeft name =>
    "Reserved symbol '" ++ name ++ "' cannot appear on the left-hand side of a production"
  | .declaredWithProductions names =>
    "Symbols declared as terminals have productions: " ++ Text.quoteList names
  | .reservedInRule name lhs =>
    "Reserved symbol '" ++ name ++ "' used in a production of '" ++ lhs ++ "'"
  | .undefinedSymbol name lhs =>
    "Undefined symbol '" ++ name ++ "' referenced in a production of '" ++ lhs ++ "'"
  | .undefinedNonterminal name lhs =>
    "Undefined non-terminal '" ++ name ++ "' referenced in a production of '" ++ lhs ++ "'"
  | .lhsNotNonterminal symbol =>
    "Symbol '" ++ symbol.name ++ "' cannot appear on the left-hand side of a production"
  | .duplicateId id => "Duplicate production id " ++ toString id
  | .reservedOnRight symbol production =>
    "Reserved symbol '" ++ symbol.name ++ "' used in production " ++ production.text
  | .undefinedOnRight symbol production =>
    "Undefined non-terminal '" ++ symbol.name ++ "' referenced in production " ++ production.text
  | .startWithoutProductions name => "Start symbol '" ++ name ++ "' has no productions"
  | .invalidStart name choices =>
    "Invalid start symbol '" ++ name ++ "'. Must be one of: " ++ Text.quoteList choices
  | .terminalAndNonterminal name =>
    "Symbol '" ++ name ++ "' is classified both as a terminal and a non-terminal"
  | .unknownSymbol name => "Unknown symbol '" ++ name ++ "'"

/-- Why a question about a grammar, its sets or its table has no answer. -/
inductive Error where
  | grammar (cause : GrammarError)
  | unknownStrategy (name : String)
  | followUndefined (symbol : Symbol)
  | reservedInput (name : String)
  | unknownProduction (id : Int)
  | unknownNonterminal (symbol : Symbol)
  deriving DecidableEq, Repr

/-- The names under which the strategies for FIRST and FOLLOW are chosen. -/
def strategyNames : List String := ["fixed_point", "recursive"]

def Error.message : Error → String
  | .grammar cause => cause.message
  | .unknownStrategy name =>
    "Unknown strategy '" ++ name ++ "'. Must be one of: " ++ Text.quoteList strategyNames
  | .followUndefined symbol =>
    "FOLLOW is only defined for non-terminals, got '" ++ symbol.name ++ "'"
  | .reservedInput name => "Reserved symbol '" ++ name ++ "' cannot appear in the input"
  | .unknownProduction id => toString id
  | .unknownNonterminal symbol => symbol.description

/-! ### Steps that can fail -/

section
variable {Cause First Second : Type}

theorem exists_of_bind_eq_ok {step : Except Cause First} {next : First → Except Cause Second}
    {result : Second} (ok : step >>= next = .ok result) :
    ∃ value, step = .ok value ∧ next value = .ok result := by
  cases step with
  | error cause => cases ok
  | ok value => exact ⟨value, rfl, ok⟩

theorem mapM_eq_ok {step : First → Except Cause Second} {value : First → Second}
    {elements : List First} (each : ∀ element ∈ elements, step element = .ok (value element)) :
    elements.mapM step = .ok (elements.map value) := by
  induction elements with
  | nil => rfl
  | cons element rest ih =>
    obtain ⟨first, others⟩ := List.forall_mem_cons.mp each
    rw [List.mapM_cons, first, ih others]
    rfl

theorem exists_mapM_eq_ok {step : First → Except Cause Second} {elements : List First}
    (each : ∀ element ∈ elements, ∃ value, step element = .ok value) :
    ∃ values, elements.mapM step = .ok values := by
  induction elements with
  | nil => exact ⟨[], rfl⟩
  | cons element rest ih =>
    obtain ⟨⟨value, first⟩, others⟩ := List.forall_mem_cons.mp each
    obtain ⟨values, later⟩ := ih others
    exact ⟨value :: values, by rw [List.mapM_cons, first, later]; rfl⟩

end

end Predictive
