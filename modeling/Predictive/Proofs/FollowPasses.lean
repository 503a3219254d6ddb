import Predictive.Proofs.FirstSets
import Predictive.Sets.Follow
import Mathlib.Data.Finset.Card
import Mathlib.Order.Monotone.Basic

/-! FOLLOW sets from any FIRST sets, right or wrong. Remembered sequences do not change what a place
of a non-terminal contributes. An element of a FOLLOW set starts at some place and is handed on from
left-hand sides, at most once for each other non-terminal. So a pass that hands on what it finds is
done after as many times as there are non-terminals, and what it leaves are the least sets that are
closed under the contributions of all places. The passes over the places are of this kind. -/

set_option autoImplicit false

namespace Predictive

namespace SequenceCache

/-- What is remembered is what would be computed. -/
def Faithful (cache : SequenceCache) (first : Assignment) : Prop :=
  ∀ entry ∈ cache.stored, entry.2 = firstOfSequence first entry.1

variable {cache : SequenceCache} {first : Assignment}

theorem Faithful.empty (hits misses : Nat) : Faithful ⟨[], hits, misses⟩ first := by
  simp [Faithful]

theorem Faithful.find? (faithful : cache.Faithful first) {symbols : List Symbol} {set : SymbolSet}
    (found : cache.find? symbols = some set) : set = firstOfSequence first symbols := by
  obtain ⟨entry, located, rfl⟩ := Option.map_eq_some_iff.mp found
  have same : entry.1 = symbols := by simpa using List.find?_some located
  rw [← same]
  exact faithful entry (List.mem_of_find?_eq_some located)

theorem Faithful.store (faithful : cache.Faithful first) {symbols : List Symbol} {set : SymbolSet}
    (same : set = firstOfSequence first symbols) : (cache.store symbols set).Faithful first := by
  intro entry member
  rcases List.mem_cons.mp member with rfl | member
  · exact same
  · exact faithful entry member

theorem Faithful.request (faithful : cache.Faithful first) (symbols : List Symbol) :
    (cache.request first symbols).1 = firstOfSequence first symbols ∧
      (cache.request first symbols).2.Faithful first := by
  unfold SequenceCache.request
  split
  · rename_i set found
    exact ⟨faithful.find? found, faithful⟩
  · have missed : cache.miss.Faithful first := faithful
    exact ⟨rfl, missed.store rfl⟩

end SequenceCache

/-- What a place of a non-terminal contributes to the set of that non-terminal is there. -/
def Assignment.FollowSettled (first follow : Assignment) (place : Occurrence) : Prop :=
  (∀ element ∈ firstOfSequence first place.rest, element ≠ .epsilon →
      element ∈ follow.get place.symbol) ∧
    (.epsilon ∈ firstOfSequence first place.rest →
      ∀ element ∈ follow.get place.lhs, element ∈ follow.get place.symbol)

/-- What a place contributes is in the set of its symbol, where as much of the set of the
left-hand side counts as `seeds` has. -/
def Assignment.FollowFed (first seeds follow : Assignment) (place : Occurrence) : Prop :=
  (∀ element ∈ firstOfSequence first place.rest, element ≠ .epsilon →
      element ∈ follow.get place.symbol) ∧
    (.epsilon ∈ firstOfSequence first place.rest →
      ∀ element ∈ seeds.get place.lhs, element ∈ follow.get place.symbol)

theorem Assignment.FollowFed.mono {first seeds follow other : Assignment} {place : Occurrence}
    (fed : first.FollowFed seeds follow place) (below : follow.Below other) :
    first.FollowFed seeds other place :=
  ⟨fun element inside visible => below _ element (fed.1 element inside visible),
    fun empty element inside => below _ element (fed.2 empty element inside)⟩

namespace FollowState

variable {first : Assignment} {state : FollowState}

theorem visit_eq (faithful : state.cache.Faithful first) (place : Occurrence) :
    (visit first state place).cache.Faithful first ∧
      (visit first state place).follow =
        (let added := state.follow.add place.symbol
            ((firstOfSequence first place.rest).without .epsilon)
          if .epsilon ∈ firstOfSequence first place.rest ∧ place.lhs ≠ place.symbol then
            added.add place.symbol (added.get place.lhs)
          else added) := by
  obtain ⟨same, kept⟩ := faithful.request place.rest
  unfold visit
  dsimp only
  rw [same]
  split
  · exact ⟨kept, rfl⟩
  · exact ⟨kept, rfl⟩

theorem mem_visit (faithful : state.cache.Faithful first) {place : Occurrence}
    {symbol element : Symbol} :
    element ∈ (visit first state place).follow.get symbol ↔
      element ∈ state.follow.get symbol ∨
        symbol = place.symbol ∧
          ((element ∈ firstOfSequence first place.rest ∧ element ≠ .epsilon) ∨
            (.epsilon ∈ firstOfSequence first place.rest ∧
              element ∈ state.follow.get place.lhs)) := by
  rw [(visit_eq faithful place).2]
  dsimp only
  split
  · rename_i trailing
    simp only [Assignment.mem_get_add, SymbolSet.mem_without, trailing.1, trailing.2, true_and,
      false_and, or_false]
    tauto
  · rename_i trailing
    simp only [Assignment.mem_get_add, SymbolSet.mem_without]
    constructor
    · rintro (old | ⟨same, added⟩)
      · exact .inl old
      · exact .inr ⟨same, .inl added⟩
    · rintro (old | ⟨same, added | ⟨empty, behind⟩⟩)
      · exact .inl old
      · exact .inr ⟨same, added⟩
      · -- the left-hand side is the symbol itself, so its set gains nothing
        have own : place.lhs = place.symbol := by
          by_contra other
          exact trailing ⟨empty, other⟩
        exact .inl (by rw [same, ← own]; exact behind)

end FollowState

namespace Grammar

/-! ### Closed sets -/

variable {grammar : Grammar} {first other follow : Assignment}

theorem mem_occurrences {place : Occurrence} :
    place ∈ grammar.occurrences ↔
      place.symbol.isNonterminal = true ∧
        ∃ production ∈ grammar.productions, production.lhs = place.lhs ∧
          ∃ before, production.rhs = before ++ place.symbol :: place.rest := by
  simp only [occurrences, List.mem_flatMap, Production.occurrences, mem_occurrencesIn]
  constructor
  · rintro ⟨production, declared, owner, kind, before, split⟩
    exact ⟨kind, production, declared, owner.symm, before, split⟩
  · rintro ⟨kind, production, declared, owner, before, split⟩
    exact ⟨production, declared, owner.symm, kind, before, split⟩

theorem occurrence_mem_nonTerminals {place : Occurrence} (member : place ∈ grammar.occurrences) :
    place.symbol ∈ grammar.nonTerminals := by
  obtain ⟨kind, production, declared, _, before, split⟩ := mem_occurrences.mp member
  exact mem_nonTerminals_of_rhs declared (by simp [split]) kind

theorem mem_nonTerminals_of_rest {place : Occurrence} (member : place ∈ grammar.occurrences)
    {symbol : Symbol} (behind : symbol ∈ place.rest) (kind : symbol.isNonterminal = true) :
    symbol ∈ grammar.nonTerminals := by
  obtain ⟨_, production, declared, _, before, split⟩ := mem_occurrences.mp member
  exact mem_nonTerminals_of_rhs declared (by simp [split, behind]) kind

variable (grammar)

theorem mem_startFollow {symbol element : Symbol} :
    element ∈ grammar.startFollow.get symbol ↔ symbol = grammar.start ∧ element = .endOfInput := by
  simp [startFollow]

/-- Sets that hold the end of input behind the start symbol and what every place contributes. -/
structure FollowClosed (first follow : Assignment) : Prop where
  start : .endOfInput ∈ follow.get grammar.start
  settled : ∀ place ∈ grammar.occurrences, first.FollowSettled follow place

variable {grammar}

theorem FollowClosed.anti (closed : grammar.FollowClosed other follow) (below : first.Below other) :
    grammar.FollowClosed first follow where
  start := closed.start
  settled place member :=
    ⟨fun element inside => (closed.settled place member).1 element (firstOfSequence_mono below inside),
      fun empty => (closed.settled place member).2 (firstOfSequence_mono below empty)⟩

/-! ### How elements come to a symbol -/

/-- An element comes to FOLLOW of a symbol from a place of its own, or with the set of a left-hand
side, after so many steps of the latter kind at most. -/
inductive FollowReach (grammar : Grammar) (first : Assignment) (element : Symbol) :
    Nat → Symbol → Prop where
  | start {steps : Nat} (ending : element = .endOfInput) :
      FollowReach grammar first element steps grammar.start
  | leading {steps : Nat} {place : Occurrence} (member : place ∈ grammar.occurrences)
      (begun : element ∈ firstOfSequence first place.rest) (visible : element ≠ .epsilon) :
      FollowReach grammar first element steps place.symbol
  | trailing {steps : Nat} {place : Occurrence} (member : place ∈ grammar.occurrences)
      (empty : .epsilon ∈ firstOfSequence first place.rest)
      (behind : FollowReach grammar first element steps place.lhs) :
      FollowReach grammar first element (steps + 1) place.symbol

variable {element symbol : Symbol} {steps more : Nat}

namespace FollowReach

theorem mono (reach : grammar.FollowReach first element steps symbol) (least : steps ≤ more) :
    grammar.FollowReach first element more symbol := by
  induction reach generalizing more with
  | start ending => exact .start ending
  | leading member begun visible => exact .leading member begun visible
  | trailing member empty _ ih =>
    cases more with
    | zero => exact absurd least (Nat.not_succ_le_zero _)
    | succ more => exact .trailing member empty (ih (Nat.le_of_succ_le_succ least))

theorem known (reach : grammar.FollowReach first element steps symbol) :
    symbol ∈ grammar.nonTerminals := by
  cases reach with
  | start => exact grammar.start_mem
  | leading member => exact occurrence_mem_nonTerminals member
  | trailing member => exact occurrence_mem_nonTerminals member

theorem mem_closed (closed : grammar.FollowClosed first follow)
    (reach : grammar.FollowReach first element steps symbol) : element ∈ follow.get symbol := by
  induction reach with
  | start ending =>
    rw [ending]
    exact closed.start
  | leading member begun visible => exact (closed.settled _ member).1 element begun visible
  | trailing member empty _ ih => exact (closed.settled _ member).2 empty element ih

/-- What is reached with one more step is reached without it, or from what is. -/
theorem cases_succ (reach : grammar.FollowReach first element (steps + 1) symbol) :
    grammar.FollowReach first element steps symbol ∨
      ∃ place ∈ grammar.occurrences, place.symbol = symbol ∧
        .epsilon ∈ firstOfSequence first place.rest ∧
          grammar.FollowReach first element steps place.lhs := by
  cases reach with
  | start ending => exact .inl (.start ending)
  | leading member begun visible => exact .inl (.leading member begun visible)
  | trailing member empty behind => exact .inr ⟨_, member, rfl, empty, behind⟩

theorem exists_without_steps (reach : grammar.FollowReach first element steps symbol) :
    ∃ other, grammar.FollowReach first element 0 other := by
  induction reach with
  | start ending => exact ⟨_, .start ending⟩
  | leading member begun visible => exact ⟨_, .leading member begun visible⟩
  | trailing _ _ _ ih => exact ih

end FollowReach

open Classical in
/-- The non-terminals that an element reaches. -/
noncomputable def reached (grammar : Grammar) (first : Assignment) (element : Symbol)
    (steps : Nat) : Finset Symbol :=
  grammar.nonTerminals.toFinset.filter (grammar.FollowReach first element steps)

theorem mem_reached :
    symbol ∈ grammar.reached first element steps ↔
      grammar.FollowReach first element steps symbol := by
  simp only [reached, Finset.mem_filter, List.mem_toFinset, and_iff_right_iff_imp]
  exact FollowReach.known

theorem reached_subset (least : steps ≤ more) :
    grammar.reached first element steps ⊆ grammar.reached first element more :=
  fun _ member => mem_reached.mpr ((mem_reached.mp member).mono least)

theorem reached_stable
    (same : grammar.reached first element steps = grammar.reached first element (steps + 1)) :
    grammar.reached first element (steps + 1) = grammar.reached first element (steps + 2) := by
  refine Finset.Subset.antisymm (reached_subset (Nat.le_succ _)) fun symbol member => ?_
  rw [mem_reached] at member ⊢
  -- the last step starts from what one step less reaches, and so does the one before
  rcases member.cases_succ with fewer | ⟨place, listed, rfl, empty, behind⟩
  · exact fewer
  · rw [← mem_reached, ← same, mem_reached] at behind
    exact .trailing listed empty behind

theorem card_reached_le :
    (grammar.reached first element steps).card ≤ grammar.nonTerminals.length := by
  have listed : grammar.reached first element steps ⊆ grammar.nonTerminals.toFinset :=
    fun _ member => List.mem_toFinset.mpr (mem_reached.mp member).known
  exact (Finset.card_le_card listed).trans (List.toFinset_card_le _)

theorem reached_eq_of_card (least : steps ≤ more)
    (same : (grammar.reached first element steps).card = (grammar.reached first element more).card) :
    grammar.reached first element steps = grammar.reached first element more :=
  Finset.eq_of_subset_of_card_le (reached_subset least) (Nat.le_of_eq same.symm)

/-- One step for each non-terminal but the first suffices. -/
theorem FollowReach.early (reach : grammar.FollowReach first element steps symbol) :
    grammar.FollowReach first element (grammar.nonTerminals.length - 1) symbol := by
  obtain ⟨origin, initial⟩ := reach.exists_without_steps
  have some (steps : Nat) : 0 < (grammar.reached first element steps).card :=
    Finset.card_pos.mpr ⟨origin, mem_reached.mpr (initial.mono (Nat.zero_le _))⟩
  -- some non-terminal is reached without a step, so only the others count
  have stable : (grammar.reached first element (max steps (grammar.nonTerminals.length - 1))).card - 1 =
      (grammar.reached first element (grammar.nonTerminals.length - 1)).card - 1 := by
    refine Nat.stabilises_of_monotone (f := fun steps => (grammar.reached first element steps).card - 1)
      ?_ ?_ ?_ (Nat.le_max_right _ _)
    · exact fun _ _ least => Nat.sub_le_sub_right (Finset.card_le_card (reached_subset least)) 1
    · exact fun _ => Nat.sub_le_sub_right card_reached_le 1
    · intro steps same
      have least := some steps
      have later := some (steps + 1)
      rw [reached_stable (reached_eq_of_card (Nat.le_succ steps) (by omega))]
  have least := some (grammar.nonTerminals.length - 1)
  have later := some (max steps (grammar.nonTerminals.length - 1))
  rw [← mem_reached, reached_eq_of_card (Nat.le_max_right steps _) (by omega), mem_reached]
  exact reach.mono (Nat.le_max_left _ _)

/-! ### Passes that hand on what they find -/

/-- A state whose sets hold nothing but what comes to their symbols. -/
structure FollowSound (grammar : Grammar) (first : Assignment) (state : FollowState) : Prop where
  faithful : state.cache.Faithful first
  distinct : (state.follow.entries.map Prod.fst).Nodup
  reached : ∀ symbol, ∀ element ∈ state.follow.get symbol,
    ∃ steps, grammar.FollowReach first element steps symbol

theorem FollowSound.below_closed {state : FollowState} (sound : grammar.FollowSound first state)
    (closed : grammar.FollowClosed first follow) : state.follow.Below follow := by
  intro symbol element member
  obtain ⟨_, reach⟩ := sound.reached symbol element member
  exact reach.mem_closed closed

/-- The least sets that are closed. -/
structure LeastFollow (grammar : Grammar) (first follow : Assignment) : Prop where
  closed : grammar.FollowClosed first follow
  least : ∀ other, grammar.FollowClosed first other → follow.Below other

theorem FollowSound.least {state : FollowState} (sound : grammar.FollowSound first state)
    (closed : grammar.FollowClosed first state.follow) : grammar.LeastFollow first state.follow :=
  ⟨closed, fun _ => sound.below_closed⟩

theorem LeastFollow.mem_iff {other : Assignment} (least : grammar.LeastFollow first follow)
    (same : grammar.LeastFollow first other) :
    element ∈ follow.get symbol ↔ element ∈ other.get symbol :=
  ⟨least.least other same.closed symbol element, same.least follow least.closed symbol element⟩

/-- A pass that keeps all sets, and feeds every place with what was known before it. -/
structure HandsOn (grammar : Grammar) (first : Assignment) (pass : FollowState → FollowState)
    (holds : FollowState → Prop) : Prop where
  kept : ∀ state, holds state → holds (pass state)
  sound : ∀ state, holds state → grammar.FollowSound first state
  below : ∀ state, holds state → state.follow.Below (pass state).follow
  start : ∀ state, holds state → .endOfInput ∈ (pass state).follow.get grammar.start
  fed : ∀ state, holds state → ∀ place ∈ grammar.occurrences,
    first.FollowFed state.follow (pass state).follow place

namespace HandsOn

variable {pass : FollowState → FollowState} {holds : FollowState → Prop} {state : FollowState}

theorem iterate (handsOn : grammar.HandsOn first pass holds) (initial : holds state)
    (passes : Nat) : holds (pass^[passes] state) := by
  induction passes with
  | zero => exact initial
  | succ passes ih =>
    rw [Function.iterate_succ_apply']
    exact handsOn.kept _ ih

/-- The passes need no more rounds than an element needs steps. -/
theorem mem_iterate (handsOn : grammar.HandsOn first pass holds) (initial : holds state)
    (reach : grammar.FollowReach first element steps symbol) :
    element ∈ (pass^[steps + 1] state).follow.get symbol := by
  -- what starts somewhere is there after any pass, and each further pass makes one step at least
  induction reach with
  | start ending =>
    rw [Function.iterate_succ_apply', ending]
    exact handsOn.start _ (handsOn.iterate initial _)
  | leading member begun visible =>
    rw [Function.iterate_succ_apply']
    exact (handsOn.fed _ (handsOn.iterate initial _) _ member).1 _ begun visible
  | trailing member empty _ ih =>
    rw [Function.iterate_succ_apply']
    exact (handsOn.fed _ (handsOn.iterate initial _) _ member).2 empty _ ih

/-- After as many passes as there are non-terminals, nothing is added any more. -/
theorem size_iterate (handsOn : grammar.HandsOn first pass holds) (initial : holds state) :
    (pass^[grammar.nonTerminals.length + 1] state).size =
      (pass^[grammar.nonTerminals.length] state).size := by
  have early := handsOn.iterate initial grammar.nonTerminals.length
  have late := handsOn.iterate initial (grammar.nonTerminals.length + 1)
  have grows := handsOn.below _ early
  -- whatever is found by the later pass needed fewer steps than there were passes before it
  have settled : (pass^[grammar.nonTerminals.length + 1] state).follow.Below
      (pass^[grammar.nonTerminals.length] state).follow := by
    intro symbol element member
    obtain ⟨_, reach⟩ := (handsOn.sound _ late).reached symbol element member
    have found := handsOn.mem_iterate initial reach.early
    rwa [Nat.sub_add_cancel (List.length_pos_of_mem grammar.start_mem)] at found
  rw [← Function.iterate_succ_apply' pass] at grows
  exact Nat.le_antisymm
    (settled.size_le (handsOn.sound _ late).distinct (handsOn.sound _ early).distinct)
    (grows.size_le (handsOn.sound _ early).distinct (handsOn.sound _ late).distinct)

/-- A pass that adds nothing leaves closed sets. -/
theorem closed_of_size (handsOn : grammar.HandsOn first pass holds) (initial : holds state)
    (same : (pass state).size = state.size) : grammar.FollowClosed first (pass state).follow where
  start := handsOn.start state initial
  settled := by
    -- sets of one size that grew are the same, so what the places were fed is all there is
    have back : (pass state).follow.Below state.follow :=
      (handsOn.below state initial).antisymm_of_size (handsOn.sound _ initial).distinct
        (handsOn.sound _ (handsOn.kept _ initial)).distinct same
    intro place member
    obtain ⟨begun, behind⟩ := handsOn.fed state initial place member
    exact ⟨begun, fun empty element inside => behind empty element (back _ element inside)⟩

/-- The repetition of such a pass ends, if it may take one more than there are non-terminals. -/
theorem loopsTo (handsOn : grammar.HandsOn first pass holds) (initial : holds state)
    {limit : Nat} (enough : grammar.nonTerminals.length < limit) :
    LoopsTo pass (fun early late => late.size = early.size) state
      (untilStable pass FollowState.size limit state) :=
  untilStable_loopsTo enough (handsOn.size_iterate initial)

theorem untilStable_sound (handsOn : grammar.HandsOn first pass holds) (initial : holds state)
    {limit : Nat} (enough : grammar.nonTerminals.length < limit) :
    grammar.FollowSound first (untilStable pass FollowState.size limit state) ∧
      grammar.FollowClosed first (untilStable pass FollowState.size limit state).follow := by
  obtain ⟨before, held, same, equal⟩ :=
    (handsOn.loopsTo initial enough).ends holds handsOn.kept initial
  rw [equal]
  exact ⟨handsOn.sound _ (handsOn.kept _ held), handsOn.closed_of_size held same⟩

end HandsOn

/-! ### Passes over the places -/

variable {state : FollowState} {place : Occurrence}

theorem FollowSound.visit (sound : grammar.FollowSound first state)
    (member : place ∈ grammar.occurrences) :
    grammar.FollowSound first (FollowState.visit first state place) where
  faithful := (FollowState.visit_eq sound.faithful place).1
  distinct := by
    rw [(FollowState.visit_eq sound.faithful place).2]
    dsimp only
    split
    · exact Assignment.nodup_addEntry (Assignment.nodup_addEntry sound.distinct)
    · exact Assignment.nodup_addEntry sound.distinct
  reached := by
    intro symbol element found
    rcases (FollowState.mem_visit sound.faithful).mp found with
      old | ⟨rfl, ⟨begun, visible⟩ | ⟨empty, behind⟩⟩
    · exact sound.reached symbol element old
    · exact ⟨0, .leading member begun visible⟩
    · obtain ⟨steps, reach⟩ := sound.reached _ element behind
      exact ⟨steps + 1, .trailing member empty reach⟩

theorem below_visit (faithful : state.cache.Faithful first) (place : Occurrence) :
    state.follow.Below (FollowState.visit first state place).follow :=
  fun _ _ member => (FollowState.mem_visit faithful).mpr (.inl member)

theorem foldl_visits_fed {places : List Occurrence} (sound : grammar.FollowSound first state)
    (listed : ∀ place ∈ places, place ∈ grammar.occurrences) :
    grammar.FollowSound first (places.foldl (FollowState.visit first) state) ∧
      state.follow.Below (places.foldl (FollowState.visit first) state).follow ∧
      ∀ place ∈ places,
        first.FollowFed state.follow (places.foldl (FollowState.visit first) state).follow place := by
  induction places generalizing state with
  | nil => exact ⟨sound, .refl _, by simp⟩
  | cons place rest ih =>
    obtain ⟨member, others⟩ := List.forall_mem_cons.mp listed
    obtain ⟨last, grows, fed⟩ := ih (sound.visit member) others
    have once := below_visit sound.faithful place
    rw [List.foldl_cons]
    refine ⟨last, once.trans grows, List.forall_mem_cons.mpr ⟨⟨?_, ?_⟩, ?_⟩⟩
    · intro element begun visible
      exact grows _ element
        ((FollowState.mem_visit sound.faithful).mpr (.inr ⟨rfl, .inl ⟨begun, visible⟩⟩))
    · intro empty element behind
      exact grows _ element
        ((FollowState.mem_visit sound.faithful).mpr (.inr ⟨rfl, .inr ⟨empty, behind⟩⟩))
    · intro other later
      obtain ⟨begun, behind⟩ := fed other later
      exact ⟨begun, fun empty element inside => behind empty element (once _ element inside)⟩

/-- The states between passes know that the end of input is behind the start symbol. -/
theorem followPass_handsOn (grammar : Grammar) (first : Assignment) :
    grammar.HandsOn first (grammar.followPass first) fun state =>
      grammar.FollowSound first state ∧ .endOfInput ∈ state.follow.get grammar.start where
  kept := by
    rintro state ⟨sound, begun⟩
    obtain ⟨last, grows, _⟩ := foldl_visits_fed sound fun _ listed => listed
    exact ⟨last, grows _ _ begun⟩
  sound := fun _ held => held.1
  below := fun _ held => (foldl_visits_fed held.1 fun _ listed => listed).2.1
  start := fun _ held => (foldl_visits_fed held.1 fun _ listed => listed).2.1 _ _ held.2
  fed := fun _ held => (foldl_visits_fed held.1 fun _ listed => listed).2.2

theorem followSound_start {cache : SequenceCache} (faithful : cache.Faithful first) :
    grammar.FollowSound first ⟨grammar.startFollow, cache⟩ where
  faithful := faithful
  distinct := by simp [startFollow, Assignment.add, Assignment.addEntry, Assignment.empty]
  reached := by
    intro symbol element member
    obtain ⟨rfl, rfl⟩ := grammar.mem_startFollow.mp member
    exact ⟨0, .start rfl⟩

theorem length_lt_passLimit (grammar : Grammar) :
    grammar.nonTerminals.length < grammar.passLimit :=
  Nat.lt_succ_of_le (Nat.le_mul_of_pos_right _ (Nat.succ_pos _))

section
variable {cache : SequenceCache} (faithful : cache.Faithful first)
include faithful

/-- The loop of the passes, which stops when a pass adds nothing. -/
theorem followByPasses_loopsTo :
    LoopsTo (grammar.followPass first) (fun early late => late.size = early.size)
      ⟨grammar.startFollow, cache⟩ (grammar.followByPasses first cache) :=
  (followPass_handsOn grammar first).loopsTo
    ⟨followSound_start faithful, grammar.mem_startFollow.mpr ⟨rfl, rfl⟩⟩ grammar.length_lt_passLimit

theorem followByPasses_ends :
    grammar.FollowSound first (grammar.followByPasses first cache) ∧
      grammar.FollowClosed first (grammar.followByPasses first cache).follow :=
  (followPass_handsOn grammar first).untilStable_sound
    ⟨followSound_start faithful, grammar.mem_startFollow.mpr ⟨rfl, rfl⟩⟩ grammar.length_lt_passLimit

theorem followByPasses_least :
    grammar.LeastFollow first (grammar.followByPasses first cache).follow :=
  (followByPasses_ends faithful).1.least (followByPasses_ends faithful).2

end

end Grammar

end Predictive
