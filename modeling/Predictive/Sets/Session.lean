import Predictive.Sets.Follow
import Predictive.Number.Percentage

/-! Sessions: questions about the FIRST and FOLLOW sets of one grammar. The sets are computed when
they are first needed and kept; FIRST sets of sequences are remembered, but for those that were
asked before the FIRST sets were computed. -/

set_option autoImplicit false

namespace Predictive

structure Session where
  grammar : Grammar
  strategy : Strategy
  first : Option Assignment := none
  follow : Option Assignment := none
  cache : SequenceCache := {}

structure CacheStatistics where
  hits : Nat
  misses : Nat
  cached : Nat
  rate : String
  deriving DecidableEq, Repr

namespace Session

def new (grammar : Grammar) (strategy : Strategy) : Session :=
  { grammar, strategy }

def withFirst (session : Session) : Session :=
  match session.first with
  | some _ => session
  | none =>
    { session with
      first := some (session.grammar.firstSets session.strategy)
      cache := session.cache.forget }

def withFollow (session : Session) : Session :=
  let session := session.withFirst
  match session.first, session.follow with
  | some first, none =>
    let state := session.grammar.followSets first session.cache session.strategy
    { session with follow := some state.follow, cache := state.cache }
  | _, _ => session

/-- The FIRST sets that are computed so far. -/
def firstAssignment (session : Session) : Assignment :=
  session.first.getD .empty

def followAssignment (session : Session) : Assignment :=
  session.follow.getD .empty

/-- The FIRST sets of the non-terminals, then those of the terminals. -/
def firstSets (session : Session) : List (Symbol × SymbolSet) × Session :=
  let session := session.withFirst
  let grammar := session.grammar
  ((grammar.nonTerminals ++ grammar.terminals).map fun symbol =>
    (symbol, session.firstAssignment.firstOf symbol), session)

def followSets (session : Session) : List (Symbol × SymbolSet) × Session :=
  let session := session.withFollow
  (session.grammar.nonTerminals.map fun symbol =>
    (symbol, session.followAssignment.get symbol), session)

/-- FIRST of a symbol. A non-terminal must belong to the grammar. -/
def firstOf (session : Session) (reference : SymbolReference) :
    Except Error SymbolSet × Session :=
  match session.grammar.resolve reference with
  | .error cause => (.error (.grammar cause), session)
  | .ok symbol =>
    if symbol.isNonterminal then
      let session := session.withFirst
      if session.grammar.nonTerminals.contains symbol then
        (.ok (session.firstAssignment.get symbol), session)
      else (.error (.unknownNonterminal symbol), session)
    else (.ok (.singleton symbol), session)

/-- FOLLOW of a non-terminal of the grammar. -/
def followOf (session : Session) (reference : SymbolReference) :
    Except Error SymbolSet × Session :=
  match session.grammar.resolve reference with
  | .error cause => (.error (.grammar cause), session)
  | .ok symbol =>
    if symbol.isNonterminal then
      let session := session.withFollow
      if session.grammar.nonTerminals.contains symbol then
        (.ok (session.followAssignment.get symbol), session)
      else (.error (.unknownNonterminal symbol), session)
    else (.error (.followUndefined symbol), session)

/-- Whether FIRST of a sequence depends on a non-terminal: only then are the sets needed. -/
def needsFirst (symbols : List Symbol) : Bool :=
  (symbols.dropWhile (· = .epsilon)).head?.any Symbol.isNonterminal

/-- Counts a request that is not answered from memory, and computes FIRST sets if it needs them. -/
def prepare (session : Session) (symbols : List Symbol) : Session :=
  let session := { session with cache := session.cache.miss }
  if needsFirst symbols then session.withFirst else session

/-- FIRST of a sequence from the computed sets. -/
def answer (session : Session) (symbols : List Symbol) (memoize : Bool) : SymbolSet × Session :=
  let set := firstOfSequence session.firstAssignment symbols
  (set, if memoize then { session with cache := session.cache.store symbols set } else session)

/-- FIRST of a sequence of symbols of the grammar, from memory if possible. A set that is not to be
memorized may still be taken from memory. -/
def request (session : Session) (symbols : List Symbol) (memoize : Bool) : SymbolSet × Session :=
  match session.cache.find? symbols with
  | some set => (set, { session with cache := session.cache.hit })
  | none => (session.prepare symbols).answer symbols memoize

/-- The first non-terminal without productions that FIRST of a sequence depends on. -/
def stranger? (session : Session) : List Symbol → Option Symbol
  | [] => none
  | symbol :: rest =>
    if symbol.isNonterminal && !session.grammar.nonTerminals.contains symbol then some symbol
    else if .epsilon ∈ session.firstAssignment.firstOf symbol then session.stranger? rest
    else none

/-- FIRST of a sequence. A request that comes upon a foreign non-terminal is counted all the
same. -/
def sequence (session : Session) (references : List SymbolReference) (memoize : Bool) :
    Except Error SymbolSet × Session :=
  match references.mapM session.grammar.resolve with
  | .error cause => (.error (.grammar cause), session)
  | .ok symbols =>
    match session.cache.find? symbols with
    | some set => (.ok set, { session with cache := session.cache.hit })
    | none =>
      let session := session.prepare symbols
      match session.stranger? symbols with
      | some symbol => (.error (.unknownNonterminal symbol), session)
      | none =>
        let (set, session) := session.answer symbols memoize
        (.ok set, session)

def statistics (session : Session) : CacheStatistics :=
  let cache := session.cache
  { hits := cache.hits, misses := cache.misses, cached := cache.stored.length,
    rate := Number.percentText cache.hits cache.requests }

end Session

end Predictive
