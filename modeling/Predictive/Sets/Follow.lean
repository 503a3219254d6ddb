import Predictive.Sets.SequenceCache

/-! FOLLOW sets: the symbols that can stand behind a non-terminal, and the end of input behind
what a start symbol can end with. They are computed either by passes over all places of
non-terminals until no set grows, or by descent from each non-terminal to those whose FOLLOW
belongs to it, where a cycle sees the part that is collected so far; such descents repeat, each
from the sets of the one before, until no set grows. -/

set_option autoImplicit false

namespace Predictive

/-- The FOLLOW sets so far, with the requests that were made for them. -/
structure FollowState where
  follow : Assignment
  cache : SequenceCache
  deriving DecidableEq, Repr

namespace FollowState

def size (state : FollowState) : Nat :=
  state.follow.size

def add (state : FollowState) (symbol : Symbol) (set : SymbolSet) : FollowState :=
  { state with follow := state.follow.add symbol set }

/-- Adds the set of one symbol to that of another. -/
def addFrom (state : FollowState) (symbol source : Symbol) : FollowState :=
  state.add symbol (state.follow.get source)

/-- Adds what one place of a non-terminal contributes: the symbols that begin what follows it
and, if that can be empty, the set of the left-hand side. -/
def visit (first : Assignment) (state : FollowState) (place : Occurrence) : FollowState :=
  let (found, cache) := state.cache.request first place.rest
  let state := FollowState.add { state with cache := cache } place.symbol (found.without .epsilon)
  if .epsilon ∈ found ∧ place.lhs ≠ place.symbol then state.addFrom place.symbol place.lhs
  else state

end FollowState

namespace Grammar

/-- The end of input behind the start symbol. -/
def startFollow (grammar : Grammar) : Assignment :=
  Assignment.empty.add grammar.start (.singleton .endOfInput)

def followPass (grammar : Grammar) (first : Assignment) (state : FollowState) : FollowState :=
  grammar.occurrences.foldl (FollowState.visit first) state

def followByPasses (grammar : Grammar) (first : Assignment) (cache : SequenceCache) : FollowState :=
  untilStable (grammar.followPass first) FollowState.size grammar.passLimit
    ⟨grammar.startFollow, cache⟩

/-- Adds what one place of a non-terminal contributes, where `ask` completes the set of the
left-hand side first. Nothing is requested for a place at the end. -/
def visitByDescent (first : Assignment) (ask : FollowState → Symbol → FollowState)
    (state : FollowState) (place : Occurrence) : FollowState :=
  let (trailing, state) :=
    if place.rest.isEmpty then (true, state)
    else
      let (found, cache) := state.cache.request first place.rest
      (decide (.epsilon ∈ found),
        FollowState.add { state with cache := cache } place.symbol (found.without .epsilon))
  if trailing && place.lhs ≠ place.symbol then
    (ask state place.lhs).addFrom place.symbol place.lhs
  else state

/-- FOLLOW of a non-terminal by descent. Each set starts from its seed and is entered before the
descent, so a cycle ends where it comes back; as each level enters another non-terminal, a depth
above their number is never used up. -/
def followByDescent (grammar : Grammar) (first seeds : Assignment) :
    (depth : Nat) → FollowState → Symbol → FollowState
  | 0, state, _ => state
  | depth + 1, state, symbol =>
    if (state.follow.find? symbol).isSome then state
    else
      let state := state.add symbol (seeds.get symbol)
      let state :=
        if symbol = grammar.start then state.add symbol (.singleton .endOfInput) else state
      (grammar.occurrences.filter (·.symbol = symbol)).foldl
        (visitByDescent first (grammar.followByDescent first seeds depth)) state

/-- One descent from each non-terminal, seeded with the sets of the descents before. -/
def followDescents (grammar : Grammar) (first : Assignment) (state : FollowState) : FollowState :=
  let symbols := grammar.nonTerminals
  symbols.foldl (grammar.followByDescent first state.follow (symbols.length + 1))
    ⟨.empty, state.cache⟩

def followByRecursion (grammar : Grammar) (first : Assignment) (cache : SequenceCache) :
    FollowState :=
  untilStable (grammar.followDescents first) FollowState.size (grammar.passLimit + 1)
    ⟨.empty, cache⟩

def followSets (grammar : Grammar) (first : Assignment) (cache : SequenceCache) :
    Strategy → FollowState
  | .fixedPoint => grammar.followByPasses first cache
  | .recursive => grammar.followByRecursion first cache

end Grammar

end Predictive
