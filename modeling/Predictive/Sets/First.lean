import Predictive.Sets.Assignment
import Predictive.Sets.Iteration
import Predictive.Grammar.Basic

/-! FIRST sets: the symbols with which the strings begin that a symbol derives, and the empty
string if it is derived itself. They are computed either by passes over all productions until no
set grows, or by descent through the productions of each non-terminal, where a non-terminal that
is still open contributes nothing. -/

set_option autoImplicit false

namespace Predictive

inductive Strategy where
  | fixedPoint
  | recursive
  deriving DecidableEq, Repr

def Strategy.ofName (name : String) : Except Error Strategy :=
  if name = "fixed_point" then .ok .fixedPoint
  else if name = "recursive" then .ok .recursive
  else .error (.unknownStrategy name)

/-- FIRST of one symbol. All but non-terminals begin with themselves only. -/
def Assignment.firstOf (first : Assignment) (symbol : Symbol) : SymbolSet :=
  if symbol.isNonterminal then first.get symbol else .singleton symbol

/-- FIRST of a sequence: the symbols that some element contributes whose predecessors can all be
empty, and the empty string if all elements can. -/
def firstOfSequence (first : Assignment) : List Symbol → SymbolSet
  | [] => .singleton .epsilon
  | symbol :: rest =>
    let leading := first.firstOf symbol
    if .epsilon ∈ leading then (leading.without .epsilon).union (firstOfSequence first rest)
    else leading

@[simp] theorem firstOfSequence_nil (first : Assignment) :
    firstOfSequence first [] = .singleton .epsilon := rfl

theorem firstOfSequence_cons (first : Assignment) (symbol : Symbol) (rest : List Symbol) :
    firstOfSequence first (symbol :: rest) =
      if .epsilon ∈ first.firstOf symbol then
        ((first.firstOf symbol).without .epsilon).union (firstOfSequence first rest)
      else first.firstOf symbol := rfl

namespace Grammar

/-- A number of passes that no computation of sets exceeds: every pass but the last adds one of
the possible symbols to the set of one of the non-terminals. -/
def passLimit (grammar : Grammar) : Nat :=
  grammar.nonTerminals.length * (grammar.rhsLeaves.length + 1) + 1

/-- Adds what each production contributes to its left-hand side, in declaration order. -/
def firstPass (grammar : Grammar) (first : Assignment) : Assignment :=
  grammar.productions.foldl
    (fun first production => first.add production.lhs (firstOfSequence first production.rhs)) first

def firstByPasses (grammar : Grammar) : Assignment :=
  untilStable grammar.firstPass Assignment.size grammar.passLimit .empty

/-- FIRST of a right-hand side, where `ask` answers for a symbol and keeps what it finished. -/
def scanFirst (ask : Assignment → Symbol → SymbolSet × Assignment) :
    Assignment → List Symbol → SymbolSet × Assignment
  | finished, [] => (.singleton .epsilon, finished)
  | finished, symbol :: rest =>
    let (leading, finished) := ask finished symbol
    if .epsilon ∈ leading then
      let (others, finished) := scanFirst ask finished rest
      ((leading.without .epsilon).union others, finished)
    else (leading, finished)

/-- What some productions contribute together. -/
def collectFirst (ask : Assignment → Symbol → SymbolSet × Assignment) :
    Assignment → List Production → SymbolSet × Assignment
  | finished, [] => (.empty, finished)
  | finished, production :: rest =>
    let (found, finished) := scanFirst ask finished production.rhs
    let (others, finished) := collectFirst ask finished rest
    (found.union others, finished)

/-- FIRST of a symbol by descent through its productions. Finished sets are used again, and an
open symbol contributes nothing; as each level opens another non-terminal, a depth above their
number is never used up. -/
def firstByDescent (grammar : Grammar) : (depth : Nat) → (opened : List Symbol) → Assignment →
    Symbol → SymbolSet × Assignment
  | 0, _, finished, _ => (.empty, finished)
  | depth + 1, opened, finished, symbol =>
    if !symbol.isNonterminal then (.singleton symbol, finished)
    else match finished.find? symbol with
      | some set => (set, finished)
      | none =>
        if opened.contains symbol then (.empty, finished)
        else
          let (set, finished) := collectFirst (grammar.firstByDescent depth (symbol :: opened))
            finished (grammar.productionsOf symbol)
          (set, finished.add symbol set)

def firstByRecursion (grammar : Grammar) : Assignment :=
  let symbols := grammar.nonTerminals
  symbols.foldl
    (fun finished symbol => (grammar.firstByDescent (symbols.length + 1) [] finished symbol).2)
    .empty

def firstSets (grammar : Grammar) : Strategy → Assignment
  | .fixedPoint => grammar.firstByPasses
  | .recursive => grammar.firstByRecursion

end Grammar

end Predictive
