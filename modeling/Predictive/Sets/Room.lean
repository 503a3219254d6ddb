import Predictive.Sets.Follow

/-! The descents for FIRST and FOLLOW sets on an interpreter that has room for only so many calls.
Each call stays open until the calls that it makes have returned, and where there is no room for
another one the whole computation fails. Passes open no calls inside of each other. -/

set_option autoImplicit false

namespace Predictive

/-- Which calls of a descent can be open together. They are listed by the symbols that they are
for, the innermost first. -/
structure CallRoom where
  first : List Symbol → Bool
  follow : List Symbol → Bool

/-- Beyond some number, no calls can be open together. -/
def CallRoom.Bounded (room : CallRoom) : Prop :=
  ∃ limit, ∀ calls : List Symbol, limit < calls.length →
    room.first calls = false ∧ room.follow calls = false

/-- As `untilStable`, where a pass can fail. -/
def untilStable? {State : Type} (pass : State → Option State) (size : State → Nat) :
    (limit : Nat) → State → Option State
  | 0, state => some state
  | limit + 1, state =>
    (pass state).bind fun next =>
      if size next = size state then some next else untilStable? pass size limit next

namespace Grammar

/-- As `scanFirst`, where asking can fail. -/
def scanFirst? (ask : Assignment → Symbol → Option (SymbolSet × Assignment)) :
    Assignment → List Symbol → Option (SymbolSet × Assignment)
  | finished, [] => some (.singleton .epsilon, finished)
  | finished, symbol :: rest =>
    (ask finished symbol).bind fun (leading, finished) =>
      if .epsilon ∈ leading then
        (scanFirst? ask finished rest).map fun (others, finished) =>
          ((leading.without .epsilon).union others, finished)
      else some (leading, finished)

/-- As `collectFirst`, where asking can fail. -/
def collectFirst? (ask : Assignment → Symbol → Option (SymbolSet × Assignment)) :
    Assignment → List Production → Option (SymbolSet × Assignment)
  | finished, [] => some (.empty, finished)
  | finished, production :: rest =>
    (scanFirst? ask finished production.rhs).bind fun (found, finished) =>
      (collectFirst? ask finished rest).map fun (others, finished) =>
        (found.union others, finished)

/-- As `firstByDescent`, if there is room for its calls. The empty string is not called for. -/
def firstInRoom? (grammar : Grammar) (room : CallRoom) :
    (depth : Nat) → (opened : List Symbol) → Assignment → Symbol →
      Option (SymbolSet × Assignment)
  | 0, _, finished, _ => some (.empty, finished)
  | depth + 1, opened, finished, symbol =>
    if symbol ≠ .epsilon ∧ room.first (symbol :: opened) = false then none
    else if !symbol.isNonterminal then some (.singleton symbol, finished)
    else match finished.find? symbol with
      | some set => some (set, finished)
      | none =>
        if opened.contains symbol then some (.empty, finished)
        else
          (collectFirst? (grammar.firstInRoom? room depth (symbol :: opened)) finished
            (grammar.productionsOf symbol)).map fun (set, finished) =>
              (set, finished.add symbol set)

def firstByRecursion? (grammar : Grammar) (room : CallRoom) : Option Assignment :=
  let symbols := grammar.nonTerminals
  symbols.foldlM
    (fun finished symbol =>
      (grammar.firstInRoom? room (symbols.length + 1) [] finished symbol).map Prod.snd)
    .empty

/-- As `visitByDescent`, where asking can fail. -/
def visitByDescent? (first : Assignment) (ask : FollowState → Symbol → Option FollowState)
    (state : FollowState) (place : Occurrence) : Option FollowState :=
  let (trailing, state) :=
    if place.rest.isEmpty then (true, state)
    else
      let (found, cache) := state.cache.request first place.rest
      (decide (.epsilon ∈ found),
        FollowState.add { state with cache := cache } place.symbol (found.without .epsilon))
  if trailing && place.lhs ≠ place.symbol then
    (ask state place.lhs).map (·.addFrom place.symbol place.lhs)
  else some state

/-- As `followByDescent`, if there is room for its calls. -/
def followInRoom? (grammar : Grammar) (room : CallRoom) (first seeds : Assignment) :
    (depth : Nat) → (opened : List Symbol) → FollowState → Symbol → Option FollowState
  | 0, _, state, _ => some state
  | depth + 1, opened, state, symbol =>
    if room.follow (symbol :: opened) = false then none
    else if (state.follow.find? symbol).isSome then some state
    else
      let state := state.add symbol (seeds.get symbol)
      let state :=
        if symbol = grammar.start then state.add symbol (.singleton .endOfInput) else state
      (grammar.occurrences.filter (·.symbol = symbol)).foldlM
        (visitByDescent? first (grammar.followInRoom? room first seeds depth (symbol :: opened)))
        state

def followDescents? (grammar : Grammar) (room : CallRoom) (first : Assignment)
    (state : FollowState) : Option FollowState :=
  let symbols := grammar.nonTerminals
  symbols.foldlM (grammar.followInRoom? room first state.follow (symbols.length + 1) [])
    ⟨.empty, state.cache⟩

def followByRecursion? (grammar : Grammar) (room : CallRoom) (first : Assignment)
    (cache : SequenceCache) : Option FollowState :=
  untilStable? (grammar.followDescents? room first) FollowState.size (grammar.passLimit + 1)
    ⟨.empty, cache⟩

/-- Whether there is room for the calls that computing all sets takes. The sets are those that are
computed without a room then (`sets_of_fits`). -/
def fits (grammar : Grammar) (room : CallRoom) : Strategy → Bool
  | .fixedPoint => true
  | .recursive =>
    ((grammar.firstByRecursion? room).bind fun first =>
      grammar.followByRecursion? room first {}).isSome

end Grammar

end Predictive
