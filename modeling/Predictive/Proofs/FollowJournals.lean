import Predictive.Proofs.FollowPasses

/-! The sequences that are asked for on the way to the FOLLOW sets. A journal lists what is written
down at the steps of a computation, in the order of the steps, and retraces it if its entries alone
lead from what the computation began with to what it ends with. What the computation of the FOLLOW
sets remembers and counts is retraced by its requests, each of which is for what stands behind a
place of a non-terminal. -/

set_option autoImplicit false

namespace Predictive

/-! ### Journals -/

section
variable {State Item View Entry : Type}

/-- What is written at the steps of a fold, one after another. -/
def foldJournal (step : State → Item → State) (write : State → Item → List Entry) :
    State → List Item → List Entry
  | _, [] => []
  | state, item :: rest => write state item ++ foldJournal step write (step state item) rest

/-- What is written in the passes that `untilStable` makes. -/
def loopJournal (pass : State → State) (size : State → Nat) (write : State → List Entry) :
    (limit : Nat) → State → List Entry
  | 0, _ => []
  | limit + 1, state =>
    write state ++
      if size (pass state) = size state then [] else loopJournal pass size write limit (pass state)

/-- The entries of a journal are of some kind, and lead from one view of a state to another. -/
structure Retraces (act : View → Entry → View) (allowed : Entry → Prop) (early : View)
    (journal : List Entry) (late : View) : Prop where
  leads : late = journal.foldl act early
  entries : ∀ entry ∈ journal, allowed entry

variable {act : View → Entry → View} {allowed : Entry → Prop} {early middle late : View}

theorem Retraces.nil (view : View) : Retraces act allowed view [] view :=
  ⟨rfl, by simp⟩

theorem Retraces.single {entry : Entry} (inside : allowed entry) (leads : late = act early entry) :
    Retraces act allowed early [entry] late :=
  ⟨leads, by simpa using inside⟩

theorem Retraces.append {first second : List Entry} (before : Retraces act allowed early first middle)
    (after : Retraces act allowed middle second late) :
    Retraces act allowed early (first ++ second) late where
  leads := by rw [List.foldl_append, ← before.leads, after.leads]
  entries := List.forall_mem_append.mpr ⟨before.entries, after.entries⟩

theorem Retraces.cons {entry : Entry} {journal : List Entry} (inside : allowed entry)
    (leads : middle = act early entry) (later : Retraces act allowed middle journal late) :
    Retraces act allowed early (entry :: journal) late :=
  (Retraces.single inside leads).append later

variable (view : State → View)

theorem retraces_foldl {step : State → Item → State} {write : State → Item → List Entry}
    (holds : State → Prop) {items : List Item} (state : State)
    (kept : ∀ state, holds state → ∀ item ∈ items, holds (step state item))
    (written : ∀ state, holds state → ∀ item ∈ items,
      Retraces act allowed (view state) (write state item) (view (step state item)))
    (initial : holds state) :
    Retraces act allowed (view state) (foldJournal step write state items)
      (view (items.foldl step state)) := by
  induction items generalizing state with
  | nil => exact .nil _
  | cons item rest ih =>
    have own := written state initial item (List.mem_cons_self ..)
    have later := ih (step state item)
      (fun state held item member => kept state held item (.tail _ member))
      (fun state held item member => written state held item (.tail _ member))
      (kept state initial item (List.mem_cons_self ..))
    exact own.append later

theorem retraces_untilStable {pass : State → State} {size : State → Nat}
    {write : State → List Entry}
    (written : ∀ state, Retraces act allowed (view state) (write state) (view (pass state)))
    (limit : Nat) (state : State) :
    Retraces act allowed (view state) (loopJournal pass size write limit state)
      (view (untilStable pass size limit state)) := by
  induction limit generalizing state with
  | zero => exact .nil _
  | succ limit ih =>
    unfold loopJournal untilStable
    dsimp only
    refine (written state).append ?_
    split
    · exact .nil _
    · exact ih (pass state)

end

/-! ### FOLLOW -/

/-- A request for the FOLLOW sets. -/
def SequenceCache.ask (first : Assignment) (cache : SequenceCache) (symbols : List Symbol) :
    SequenceCache :=
  (cache.request first symbols).2

namespace Grammar

/-- The sequences that stand behind the places of non-terminals. -/
def IsRest (grammar : Grammar) (symbols : List Symbol) : Prop :=
  ∃ place ∈ grammar.occurrences, place.rest = symbols

/-- The requests of `visitByDescent`. -/
def visitJournal (first : Assignment) (write : FollowState → Symbol → List (List Symbol))
    (state : FollowState) (place : Occurrence) : List (List Symbol) :=
  if place.rest.isEmpty then
    if place.lhs ≠ place.symbol then write state place.lhs else []
  else
    let (found, cache) := state.cache.request first place.rest
    let state := FollowState.add { state with cache := cache } place.symbol (found.without .epsilon)
    place.rest ::
      if .epsilon ∈ found ∧ place.lhs ≠ place.symbol then write state place.lhs else []

/-- The requests of `followByDescent`. -/
def descentJournal (grammar : Grammar) (first seeds : Assignment) :
    (depth : Nat) → FollowState → Symbol → List (List Symbol)
  | 0, _, _ => []
  | depth + 1, state, symbol =>
    if (state.follow.find? symbol).isSome then []
    else
      let state := state.add symbol (seeds.get symbol)
      let state :=
        if symbol = grammar.start then state.add symbol (.singleton .endOfInput) else state
      foldJournal (visitByDescent first (grammar.followByDescent first seeds depth))
        (visitJournal first (grammar.descentJournal first seeds depth)) state
        (grammar.occurrences.filter (·.symbol = symbol))

/-- The requests of `followDescents`. -/
def descentsJournal (grammar : Grammar) (first : Assignment) (state : FollowState) :
    List (List Symbol) :=
  let depth := grammar.nonTerminals.length + 1
  foldJournal (grammar.followByDescent first state.follow depth)
    (grammar.descentJournal first state.follow depth) ⟨.empty, state.cache⟩ grammar.nonTerminals

/-- The sequences that are asked for on the way to the FOLLOW sets. -/
def followJournal (grammar : Grammar) (first : Assignment) (cache : SequenceCache) :
    Strategy → List (List Symbol)
  | .fixedPoint =>
    loopJournal (grammar.followPass first) FollowState.size
      (fun _ => grammar.occurrences.map Occurrence.rest) grammar.passLimit
      ⟨grammar.startFollow, cache⟩
  | .recursive =>
    loopJournal (grammar.followDescents first) FollowState.size (grammar.descentsJournal first)
      (grammar.passLimit + 1) ⟨.empty, cache⟩

variable {grammar : Grammar} {first seeds : Assignment} {state : FollowState} {place : Occurrence}

theorem cache_visit (first : Assignment) (state : FollowState) (place : Occurrence) :
    (FollowState.visit first state place).cache = state.cache.ask first place.rest := by
  unfold FollowState.visit
  dsimp only
  split <;> rfl

theorem followPass_retraces (grammar : Grammar) (first : Assignment) (state : FollowState) :
    Retraces (SequenceCache.ask first) grammar.IsRest state.cache
      (grammar.occurrences.map Occurrence.rest) (grammar.followPass first state).cache where
  leads := by
    rw [List.foldl_map]
    exact (List.foldl_hom FollowState.cache fun state place =>
      (cache_visit first state place).symm).symm
  entries symbols member := List.mem_map.mp member

theorem visitByDescent_retraces {ask : FollowState → Symbol → FollowState}
    {write : FollowState → Symbol → List (List Symbol)}
    (asked : ∀ state symbol, Retraces (SequenceCache.ask first) grammar.IsRest state.cache
      (write state symbol) (ask state symbol).cache) (member : place ∈ grammar.occurrences) :
    Retraces (SequenceCache.ask first) grammar.IsRest state.cache (visitJournal first write state place)
      (visitByDescent first ask state place).cache := by
  unfold visitJournal visitByDescent
  by_cases ending : place.rest.isEmpty = true
  · simp only [ending, if_true, Bool.true_and, decide_eq_true_eq]
    split
    · exact asked state place.lhs
    · exact .nil _
  · simp only [ending, Bool.false_eq_true, if_false, Bool.and_eq_true, decide_eq_true_eq]
    let answer := state.cache.request first place.rest
    let next := FollowState.add { state with cache := answer.2 } place.symbol
      (answer.1.without .epsilon)
    refine .cons ⟨place, member, rfl⟩ rfl ?_
    split
    · exact asked next place.lhs
    · exact .nil _

theorem followByDescent_retraces (depth : Nat) (state : FollowState) (symbol : Symbol) :
    Retraces (SequenceCache.ask first) grammar.IsRest state.cache
      (grammar.descentJournal first seeds depth state symbol)
      (grammar.followByDescent first seeds depth state symbol).cache := by
  induction depth generalizing state symbol with
  | zero => exact .nil _
  | succ depth ih =>
    unfold descentJournal followByDescent
    split
    · exact .nil _
    · -- the symbol is entered without a request
      have entered : state.cache = (if symbol = grammar.start then
          (state.add symbol (seeds.get symbol)).add symbol (.singleton .endOfInput)
        else state.add symbol (seeds.get symbol)).cache := by
        split <;> rfl
      rw [entered]
      refine retraces_foldl FollowState.cache (fun _ => True) _ (fun _ _ _ _ => trivial) ?_ trivial
      intro state _ place member
      exact visitByDescent_retraces ih (List.mem_of_mem_filter member)

theorem followDescents_retraces (grammar : Grammar) (first : Assignment) (state : FollowState) :
    Retraces (SequenceCache.ask first) grammar.IsRest state.cache (grammar.descentsJournal first state)
      (grammar.followDescents first state).cache := by
  unfold descentsJournal followDescents
  refine retraces_foldl FollowState.cache (fun _ => True) ⟨.empty, state.cache⟩
    (fun _ _ _ _ => trivial) ?_ trivial
  intro state _ symbol _
  exact followByDescent_retraces _ state symbol

/-- The FOLLOW sets are computed with the requests of their journal and no others. -/
theorem followSets_retraces (grammar : Grammar) (first : Assignment) (cache : SequenceCache)
    (strategy : Strategy) :
    Retraces (SequenceCache.ask first) grammar.IsRest cache (grammar.followJournal first cache strategy)
      (grammar.followSets first cache strategy).cache := by
  cases strategy with
  | fixedPoint =>
    exact retraces_untilStable FollowState.cache (grammar.followPass_retraces first) _
      ⟨grammar.startFollow, cache⟩
  | recursive =>
    exact retraces_untilStable FollowState.cache (grammar.followDescents_retraces first) _
      ⟨.empty, cache⟩

end Grammar

end Predictive
