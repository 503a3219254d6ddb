import Predictive.Grammar.Error

/-! Context-free grammars. A grammar is an ordered list of productions with a start symbol in which
no check finds a defect; its symbols, their order and the index from names to symbols are read off
the productions. A symbol is a non-terminal if and only if it has productions. -/

set_option autoImplicit false

namespace Predictive

/-- The left-hand sides in order of first appearance. -/
def lhsSymbols (productions : List Production) : List Symbol :=
  (productions.map Production.lhs).eraseDups

/-- The terminals of the right-hand sides in order of first appearance. -/
def rhsTerminals (productions : List Production) : List Symbol :=
  ((productions.flatMap Production.rhs).filter Symbol.isTerminal).eraseDups

/-- A left-hand side that is no non-terminal, or an identity that was used before. -/
def lhsDefect? : (used : List Int) → List Production → Option GrammarError
  | _, [] => none
  | used, production :: rest =>
    if !production.lhs.isNonterminal then some (.lhsNotNonterminal production.lhs)
    else if production.id ∈ used then some (.duplicateId production.id)
    else lhsDefect? (production.id :: used) rest

/-- The first symbol of a right-hand side that may not stand there. -/
def rhsDefect? (defined : List Symbol) (production : Production) : Option GrammarError :=
  production.rhs.findSome? fun symbol =>
    if symbol.kind = .endOfInput then some (.reservedOnRight symbol production)
    else if symbol.isNonterminal && !defined.contains symbol then
      some (.undefinedOnRight symbol production)
    else none

/-- The first terminal whose name is also the name of a left-hand side. -/
def nameDefect? (defined terminals : List Symbol) : Option GrammarError :=
  (terminals.find? fun terminal => defined.contains (.nonterminal terminal.name)).map fun terminal =>
    .terminalAndNonterminal terminal.name

/-- The first reason to refuse productions with a start symbol. -/
def defect? (productions : List Production) (start : Symbol) : Option GrammarError :=
  if productions.isEmpty then some .noProductions
  else
    let defined := lhsSymbols productions
    lhsDefect? [] productions <|>
      productions.findSome? (rhsDefect? defined) <|>
      (if defined.contains start then none else some (.startWithoutProductions start.name)) <|>
      nameDefect? defined (rhsTerminals productions)

structure Grammar where
  productions : List Production
  start : Symbol
  sound : defect? productions start = none

namespace Grammar

def ofProductions (productions : List Production) (start : Symbol) : Except GrammarError Grammar :=
  match found : defect? productions start with
  | some defect => .error defect
  | none => .ok ⟨productions, start, found⟩

@[ext] theorem ext {left right : Grammar} (productions : left.productions = right.productions)
    (start : left.start = right.start) : left = right := by
  cases left
  cases right
  simp_all

/-- A grammar is built from its own productions and start symbol again. -/
theorem ofProductions_self (grammar : Grammar) :
    ofProductions grammar.productions grammar.start = .ok grammar := by
  unfold ofProductions
  split
  · next found => simp [grammar.sound] at found
  · rfl

theorem eq_of_ofProductions {productions : List Production} {start : Symbol} {grammar : Grammar}
    (built : ofProductions productions start = .ok grammar) :
    grammar.productions = productions ∧ grammar.start = start := by
  unfold ofProductions at built
  split at built
  · cases built
  · cases built
    exact ⟨rfl, rfl⟩

def nonTerminals (grammar : Grammar) : List Symbol :=
  lhsSymbols grammar.productions

def terminals (grammar : Grammar) : List Symbol :=
  rhsTerminals grammar.productions

/-- The non-terminals, the terminals and the end of input: the order in which symbols are listed. -/
def symbols (grammar : Grammar) : List Symbol :=
  grammar.nonTerminals ++ grammar.terminals ++ [Symbol.endOfInput]

/-- The terminals and the end of input: what an automaton may see next. -/
def lookaheads (grammar : Grammar) : List Symbol :=
  grammar.terminals ++ [Symbol.endOfInput]

/-- The place of a symbol in the order; all others share the place behind the last. -/
def rank (grammar : Grammar) (symbol : Symbol) : Nat :=
  grammar.symbols.idxOf symbol

/-- Sorted by rank, then by name; symbols that agree in both keep their order. -/
def sortSymbols (grammar : Grammar) (symbols : List Symbol) : List Symbol :=
  let order := grammar.symbols
  let keyed := symbols.map fun symbol => (order.idxOf symbol, symbol)
  let sorted := keyed.mergeSort fun left right =>
    left.1 < right.1 || (left.1 == right.1 && left.2.name ≤ right.2.name)
  sorted.map Prod.snd

/-- The places of non-terminals in the right-hand sides, in declaration order. -/
def occurrences (grammar : Grammar) : List Occurrence :=
  grammar.productions.flatMap Production.occurrences

def find? (grammar : Grammar) (name : String) : Option Symbol :=
  if name = Symbol.epsilon.name then some .epsilon
  else if name = Symbol.endOfInput.name then some .endOfInput
  else (grammar.nonTerminals ++ grammar.terminals).find? (·.name = name)

def symbol (grammar : Grammar) (name : String) : Except GrammarError Symbol :=
  match grammar.find? name with
  | some symbol => .ok symbol
  | none => .error (.unknownSymbol name)

/-- A symbol is taken as it is, known or not; a name must belong to a symbol of the grammar. -/
def resolve (grammar : Grammar) : SymbolReference → Except GrammarError Symbol
  | .named name => grammar.symbol name
  | .exact symbol => .ok symbol

/-- As `resolve`, where an unknown name is no failure. -/
def resolve? (grammar : Grammar) : SymbolReference → Option Symbol
  | .named name => grammar.find? name
  | .exact symbol => some symbol

/-- The productions of a non-terminal, in declaration order. -/
def productionsOf (grammar : Grammar) (symbol : Symbol) : List Production :=
  grammar.productions.filter (·.lhs = symbol)

@[simp] theorem mem_productionsOf {grammar : Grammar} {symbol : Symbol} {production : Production} :
    production ∈ grammar.productionsOf symbol ↔
      production ∈ grammar.productions ∧ production.lhs = symbol := by
  simp [productionsOf]

/-- The productions that mention a symbol on their right-hand side; none mentions the empty
string. -/
def productionsContaining (grammar : Grammar) (symbol : Symbol) : List Production :=
  if symbol = .epsilon then [] else grammar.productions.filter (·.rhs.contains symbol)

def production? (grammar : Grammar) (id : Int) : Option Production :=
  grammar.productions.find? (·.id = id)

def production (grammar : Grammar) (id : Int) : Except Error Production :=
  match grammar.production? id with
  | some production => .ok production
  | none => .error (.unknownProduction id)

def withStart (grammar : Grammar) (start : SymbolReference) : Except GrammarError Grammar :=
  match grammar.resolve? start with
  | some symbol =>
    if symbol.isNonterminal then ofProductions grammar.productions symbol
    else .error (.invalidStart start.text (grammar.nonTerminals.map Symbol.name))
  | none => .error (.invalidStart start.text (grammar.nonTerminals.map Symbol.name))

theorem productions_withStart {grammar changed : Grammar} {start : SymbolReference}
    (built : grammar.withStart start = .ok changed) :
    changed.productions = grammar.productions := by
  unfold withStart at built
  split at built
  · split at built
    · exact (eq_of_ofProductions built).1
    · cases built
  · cases built

/-- The symbols of right-hand sides that are neither non-terminals nor the empty string. -/
def rhsLeaves (grammar : Grammar) : List Symbol :=
  ((grammar.productions.flatMap Production.rhs).filter fun symbol =>
    !symbol.isNonterminal && symbol ≠ .epsilon).eraseDups

def text (grammar : Grammar) : String :=
  "\n".intercalate <|
    ["Start Symbol: " ++ grammar.start.name,
     "Terminals: " ++ quotedNames grammar.terminals,
     "Non-terminals: " ++ quotedNames grammar.nonTerminals,
     "Productions:"] ++
    grammar.productions.map fun production =>
      "  " ++ toString production.id ++ ": " ++ production.text

end Grammar

end Predictive
