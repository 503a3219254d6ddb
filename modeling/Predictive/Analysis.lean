import Predictive.Table.Build
import Predictive.Parsing.Run
import Predictive.Sets.Room
import Predictive.Source.Loader

/-! The analysis of one grammar: its FIRST and FOLLOW sets and its parse table, all computed when
the analysis is made. Later questions change nothing but the count of requests. -/

set_option autoImplicit false

namespace Predictive

structure Analysis where
  session : Session
  table : ParseTable

namespace Analysis

def new (grammar : Grammar) (strategy : Strategy) : Analysis :=
  let session := (Session.new grammar strategy).withFirst.withFollow
  let (table, session) := session.table
  ⟨session, table⟩

/-- The analysis of a grammar text under the strategy that the options name. -/
def ofText (options : GrammarOptions) (text : String) (start : Option String) :
    Except Error Analysis :=
  match Grammar.ofText options text start with
  | .error cause => .error (.grammar cause)
  | .ok grammar => (Strategy.ofName options.strategy).map (new grammar)

def grammar (analysis : Analysis) : Grammar :=
  analysis.table.grammar

def conflicts (analysis : Analysis) : List Conflict :=
  analysis.table.conflicts

/-- Whether there is room for the calls that computing the sets takes. -/
def fits (room : CallRoom) (analysis : Analysis) : Bool :=
  analysis.grammar.fits room analysis.session.strategy

def isLL1 (analysis : Analysis) : Bool :=
  analysis.table.isLL1

def report (analysis : Analysis) : String :=
  analysis.table.report

/-- FIRST of a symbol. A non-terminal without productions begins with itself. -/
def firstAt (analysis : Analysis) (symbol : Symbol) : SymbolSet :=
  if analysis.grammar.nonTerminals.contains symbol then
    analysis.session.firstAssignment.get symbol
  else .singleton symbol

def followAt (analysis : Analysis) (symbol : Symbol) : SymbolSet :=
  analysis.session.followAssignment.get symbol

def firstOf (analysis : Analysis) (reference : SymbolReference) : Except Error SymbolSet :=
  match analysis.grammar.resolve reference with
  | .error cause => .error (.grammar cause)
  | .ok symbol => .ok (analysis.firstAt symbol)

def followOf (analysis : Analysis) (reference : SymbolReference) : Except Error SymbolSet :=
  match analysis.grammar.resolve reference with
  | .error cause => .error (.grammar cause)
  | .ok symbol =>
    if analysis.grammar.nonTerminals.contains symbol then .ok (analysis.followAt symbol)
    else .error (.followUndefined symbol)

/-- FIRST of a sequence, which is not remembered. -/
def sequence (analysis : Analysis) (references : List SymbolReference) :
    Except Error SymbolSet × Analysis :=
  let (answer, session) := analysis.session.sequence references false
  (answer, { analysis with session })

/-- The FIRST sets of the non-terminals, then those of the terminals. -/
def firstSets (analysis : Analysis) : List (Symbol × SymbolSet) :=
  (analysis.grammar.nonTerminals ++ analysis.grammar.terminals).map fun symbol =>
    (symbol, analysis.firstAt symbol)

def followSets (analysis : Analysis) : List (Symbol × SymbolSet) :=
  analysis.grammar.nonTerminals.map fun symbol => (symbol, analysis.followAt symbol)

def sortedNames (analysis : Analysis) (set : SymbolSet) : List String :=
  (analysis.grammar.sortSymbols set.elements).map Symbol.name

end Analysis

end Predictive
