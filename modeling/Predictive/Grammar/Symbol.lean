import Predictive.Text.Quoted

/-! Grammar symbols. A symbol is a name together with its kind, so two symbols of one name but
different kinds are different. Two symbols are reserved: the empty string and the end of input. -/

set_option autoImplicit false

namespace Predictive

inductive SymbolKind where
  | terminal
  | nonterminal
  | epsilon
  | endOfInput
  deriving DecidableEq, Repr

def SymbolKind.label : SymbolKind → String
  | .terminal => "terminal"
  | .nonterminal => "nonterminal"
  | .epsilon => "epsilon"
  | .endOfInput => "end_of_input"

def SymbolKind.constant : SymbolKind → String
  | .terminal => "TERMINAL"
  | .nonterminal => "NONTERMINAL"
  | .epsilon => "EPSILON"
  | .endOfInput => "END_OF_INPUT"

structure Symbol where
  name : String
  kind : SymbolKind
  deriving DecidableEq, Repr

namespace Symbol

/-- Written for an empty right-hand side. -/
def epsilon : Symbol := ⟨"ε", .epsilon⟩

/-- Stands behind the last symbol of every input. -/
def endOfInput : Symbol := ⟨"$", .endOfInput⟩

def terminal (name : String) : Symbol := ⟨name, .terminal⟩

def nonterminal (name : String) : Symbol := ⟨name, .nonterminal⟩

def isTerminal (symbol : Symbol) : Bool := symbol.kind = .terminal

def isNonterminal (symbol : Symbol) : Bool := symbol.kind = .nonterminal

@[simp] theorem isNonterminal_nonterminal (name : String) :
    (nonterminal name).isNonterminal = true := rfl

@[simp] theorem isNonterminal_terminal (name : String) : (terminal name).isNonterminal = false := rfl

@[simp] theorem isNonterminal_epsilon : epsilon.isNonterminal = false := rfl

@[simp] theorem isNonterminal_endOfInput : endOfInput.isNonterminal = false := rfl

@[simp] theorem isTerminal_terminal (name : String) : (terminal name).isTerminal = true := rfl

@[simp] theorem isTerminal_epsilon : epsilon.isTerminal = false := rfl

@[simp] theorem isTerminal_endOfInput : endOfInput.isTerminal = false := rfl

theorem eq_nonterminal {symbol : Symbol} (kind : symbol.isNonterminal = true) :
    symbol = nonterminal symbol.name := by
  cases symbol
  simp_all [isNonterminal, nonterminal]

theorem eq_terminal {symbol : Symbol} (kind : symbol.isTerminal = true) :
    symbol = terminal symbol.name := by
  cases symbol
  simp_all [isTerminal, terminal]

theorem ne_epsilon_of_isNonterminal {symbol : Symbol} (kind : symbol.isNonterminal = true) :
    symbol ≠ epsilon := by
  intro same
  simp [same] at kind

theorem ne_endOfInput_of_isNonterminal {symbol : Symbol} (kind : symbol.isNonterminal = true) :
    symbol ≠ endOfInput := by
  intro same
  simp [same] at kind

def isReservedName (name : String) : Bool :=
  name == epsilon.name || name == endOfInput.name

/-- The symbol with its kind, as it is shown where a name alone would not tell which is meant. -/
def description (symbol : Symbol) : String :=
  "Symbol(" ++ Text.quote symbol.name ++ ", " ++ symbol.kind.constant ++ ")"

end Symbol

/-- The names of some symbols, separated by single spaces. -/
def spacedNames (symbols : List Symbol) : String :=
  " ".intercalate (symbols.map Symbol.name)

/-- The names of some symbols as a bracketed list of quoted texts. -/
def quotedNames (symbols : List Symbol) : String :=
  Text.quoteList (symbols.map Symbol.name)

/-- A mention of a symbol: by its name alone, or with its kind. -/
inductive SymbolReference where
  | named (name : String)
  | exact (symbol : Symbol)
  deriving DecidableEq, Repr

def SymbolReference.text : SymbolReference → String
  | .named name => name
  | .exact symbol => symbol.name

end Predictive
