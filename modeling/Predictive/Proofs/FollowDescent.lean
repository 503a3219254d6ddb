import Predictive.Proofs.FollowPasses

/-! FOLLOW sets by descent. A descent adds to the sets in a few ways. It enters a non-terminal with
what was known of it before, so a place whose left-hand side is still open gains no less than that;
and it serves every non-terminal that it enters. A round of descents enters them all. -/

set_option autoImplicit false

namespace Predictive

namespace Grammar

variable {grammar : Grammar} {first seeds follow : Assignment}

/-! ### What a descent adds -/

variable (grammar)

/-- One addition: to a non-terminal that is entered with its seed, or to one that is entered. -/
inductive Adds (first seeds : Assignment) : Assignment → Assignment → Prop where
  | enter {follow : Assignment} {symbol : Symbol} (known : symbol ∈ grammar.nonTerminals) :
      Adds first seeds follow (follow.add symbol (seeds.get symbol))
  | ending {follow : Assignment} (entered : (follow.find? grammar.start).isSome) :
      Adds first seeds follow (follow.add grammar.start (.singleton .endOfInput))
  | leading {follow : Assignment} {place : Occurrence} (member : place ∈ grammar.occurrences)
      (entered : (follow.find? place.symbol).isSome) :
      Adds first seeds follow
        (follow.add place.symbol ((firstOfSequence first place.rest).without .epsilon))
  | trailing {follow : Assignment} {place : Occurrence} (member : place ∈ grammar.occurrences)
      (entered : (follow.find? place.symbol).isSome)
      (empty : .epsilon ∈ firstOfSequence first place.rest) :
      Adds first seeds follow (follow.add place.symbol (follow.get place.lhs))

def AddsTo (first seeds : Assignment) : Assignment → Assignment → Prop :=
  Relation.ReflTransGen (grammar.Adds first seeds)

variable {grammar} {early late : Assignment}

theorem Adds.exists_add (adds : grammar.Adds first seeds early late) :
    ∃ symbol set, late = early.add symbol set ∧
      ((early.find? symbol).isSome ∨ set = seeds.get symbol) := by
  cases adds with
  | enter => exact ⟨_, _, rfl, .inr rfl⟩
  | ending entered => exact ⟨_, _, rfl, .inl entered⟩
  | leading _ entered => exact ⟨_, _, rfl, .inl entered⟩
  | trailing _ entered => exact ⟨_, _, rfl, .inl entered⟩

theorem AddsTo.below (adds : grammar.AddsTo first seeds early late) : early.Below late := by
  induction adds with
  | refl => exact .refl early
  | tail _ step ih =>
    obtain ⟨symbol, set, rfl, _⟩ := step.exists_add
    exact ih.trans (Assignment.below_add _ symbol set)

theorem AddsTo.kept (adds : grammar.AddsTo first seeds early late) : early.Kept late := by
  induction adds with
  | refl => exact .refl early
  | tail _ step ih =>
    obtain ⟨symbol, set, rfl, _⟩ := step.exists_add
    exact ih.trans (Assignment.kept_add _ symbol set)

/-- No symbol is entered without its seed. -/
theorem AddsTo.seeded (adds : grammar.AddsTo first seeds .empty late) {symbol : Symbol}
    (entered : (late.find? symbol).isSome) : ∀ element ∈ seeds.get symbol,
      element ∈ late.get symbol := by
  induction adds with
  | refl => simp at entered
  | @tail follow _ _ step ih =>
    -- the last addition is to this symbol or to another, and this one was entered or is now
    intro element member
    obtain ⟨changed, set, rfl, before⟩ := step.exists_add
    rw [Assignment.mem_get_add]
    by_cases found : (follow.find? symbol).isSome
    · exact .inl (ih found element member)
    · obtain rfl : symbol = changed := (Assignment.isSome_find?_add.mp entered).resolve_left found
      rcases before with found' | rfl
      · exact absurd found' found
      · exact .inr ⟨rfl, member⟩

/-! ### Descents -/

variable (grammar)

/-- A state on the way of a round of descents. -/
structure Underway (first seeds : Assignment) (state : FollowState) : Prop where
  faithful : state.cache.Faithful first
  adds : grammar.AddsTo first seeds .empty state.follow

/-- What belongs to a symbol whose descent has ended. -/
def Served (first seeds follow : Assignment) (symbol : Symbol) : Prop :=
  (symbol = grammar.start → .endOfInput ∈ follow.get symbol) ∧
    ∀ place ∈ grammar.occurrences, place.symbol = symbol → first.FollowFed seeds follow place

/-- What a descent does: every symbol that it enters is served. -/
structure Descends (first seeds : Assignment) (early late : FollowState) : Prop where
  faithful : late.cache.Faithful first
  adds : grammar.AddsTo first seeds early.follow late.follow
  served : ∀ symbol, (late.follow.find? symbol).isSome →
    (early.follow.find? symbol).isSome ∨ grammar.Served first seeds late.follow symbol

/-- The non-terminals that are not entered. -/
def pending (follow : Assignment) : Finset Symbol :=
  grammar.nonTerminals.toFinset.filter fun symbol => follow.find? symbol = none

variable {grammar} {state next last : FollowState} {symbol : Symbol} {place : Occurrence}

theorem Served.mono (served : grammar.Served first seeds early symbol) (below : early.Below late) :
    grammar.Served first seeds late symbol :=
  ⟨fun same => below symbol _ (served.1 same),
    fun place member own => (served.2 place member own).mono below⟩

theorem Descends.refl (faithful : state.cache.Faithful first) :
    grammar.Descends first seeds state state :=
  ⟨faithful, .refl, fun _ found => .inl found⟩

theorem Descends.trans (before : grammar.Descends first seeds state next)
    (after : grammar.Descends first seeds next last) : grammar.Descends first seeds state last where
  faithful := after.faithful
  adds := before.adds.trans after.adds
  served := by
    intro symbol found
    rcases after.served symbol found with earlier | served
    · rcases before.served symbol earlier with first | served
      · exact .inl first
      · exact .inr (served.mono after.adds.below)
    · exact .inr served

/-- An addition to a symbol that is entered leaves no symbol to be served. -/
theorem Descends.of_add (faithful : next.cache.Faithful first) {set : SymbolSet}
    (equal : next.follow = state.follow.add symbol set)
    (entered : (state.follow.find? symbol).isSome)
    (adds : grammar.Adds first seeds state.follow next.follow) :
    grammar.Descends first seeds state next where
  faithful := faithful
  adds := .single adds
  served := by
    intro other found
    rw [equal, Assignment.isSome_find?_add] at found
    rcases found with found | rfl
    · exact .inl found
    · exact .inl entered

theorem Underway.descends (underway : grammar.Underway first seeds state)
    (descends : grammar.Descends first seeds state next) : grammar.Underway first seeds next :=
  ⟨descends.faithful, underway.adds.trans descends.adds⟩

theorem pending_subset (kept : early.Kept late) : grammar.pending late ⊆ grammar.pending early := by
  intro symbol member
  simp only [pending, Finset.mem_filter] at member ⊢
  refine ⟨member.1, ?_⟩
  by_contra entered
  have found := kept symbol (Option.isSome_iff_ne_none.mpr entered)
  simp [member.2] at found

theorem card_pending_add_lt (known : symbol ∈ grammar.nonTerminals)
    (fresh : follow.find? symbol = none) (set : SymbolSet) :
    (grammar.pending (follow.add symbol set)).card < (grammar.pending follow).card := by
  apply Finset.card_lt_card
  rw [Finset.ssubset_iff_of_subset (pending_subset (follow.kept_add symbol set))]
  refine ⟨symbol, ?_, ?_⟩
  · simp [pending, known, fresh]
  · simp [pending, Assignment.find?_add]

/-- What may be asked for on the way: a non-terminal becomes entered. -/
def Asks (grammar : Grammar) (first seeds : Assignment) (ask : FollowState → Symbol → FollowState)
    (state : FollowState) : Prop :=
  ∀ next, grammar.Underway first seeds next → state.follow.Kept next.follow →
    ∀ symbol ∈ grammar.nonTerminals, grammar.Descends first seeds next (ask next symbol) ∧
      ((ask next symbol).follow.find? symbol).isSome

variable {ask : FollowState → Symbol → FollowState}

theorem lhs_mem_of_occurrence (member : place ∈ grammar.occurrences) :
    place.lhs ∈ grammar.nonTerminals := by
  obtain ⟨_, production, declared, owner, _⟩ := mem_occurrences.mp member
  exact owner ▸ lhs_mem_nonTerminals declared

/-- The visit of a place, without the requests that are made for what follows it. -/
theorem visitByDescent_eq (seeds : Assignment) (ask : FollowState → Symbol → FollowState)
    (faithful : state.cache.Faithful first)
    (entered : (state.follow.find? place.symbol).isSome) (member : place ∈ grammar.occurrences) :
    ∃ middle, grammar.Descends first seeds state middle ∧
      (∀ element ∈ firstOfSequence first place.rest, element ≠ .epsilon →
        element ∈ middle.follow.get place.symbol) ∧
      visitByDescent first ask state place =
        if .epsilon ∈ firstOfSequence first place.rest ∧ place.lhs ≠ place.symbol then
          (ask middle place.lhs).addFrom place.symbol place.lhs
        else middle := by
  unfold visitByDescent
  by_cases ending : place.rest.isEmpty = true
  · have bare : place.rest = [] := List.isEmpty_iff.mp ending
    refine ⟨state, .refl faithful, ?_, ?_⟩
    · intro element inside visible
      rw [bare] at inside
      exact absurd (by simpa using inside) visible
    · simp [bare]
  · obtain ⟨same, kept⟩ := faithful.request place.rest
    let middle := FollowState.add { state with cache := (state.cache.request first place.rest).2 }
      place.symbol ((firstOfSequence first place.rest).without .epsilon)
    refine ⟨middle, .of_add kept rfl entered (.leading member entered), ?_, ?_⟩
    · intro element inside visible
      exact Assignment.mem_get_add.mpr (.inr ⟨rfl, SymbolSet.mem_without.mpr ⟨inside, visible⟩⟩)
    · simp only [ending, Bool.false_eq_true, if_false, same, Bool.and_eq_true, decide_eq_true_eq]
      rfl

theorem visitByDescent_descends (underway : grammar.Underway first seeds state)
    (asks : Asks grammar first seeds ask state)
    (entered : (state.follow.find? place.symbol).isSome) (member : place ∈ grammar.occurrences) :
    grammar.Descends first seeds state (visitByDescent first ask state place) ∧
      first.FollowFed seeds (visitByDescent first ask state place).follow place := by
  obtain ⟨middle, leading, begun, equal⟩ :=
    visitByDescent_eq seeds ask underway.faithful entered member
  have onward := underway.descends leading
  rw [equal]
  -- where the left-hand side is the symbol itself, nothing is asked for
  by_cases trailing : .epsilon ∈ firstOfSequence first place.rest ∧ place.lhs ≠ place.symbol
  · rw [if_pos trailing]
    obtain ⟨asked, found⟩ :=
      asks middle onward leading.adds.kept place.lhs (lhs_mem_of_occurrence member)
    have whole := leading.trans asked
    have still := whole.adds.kept place.symbol entered
    have added : grammar.Descends first seeds (ask middle place.lhs)
        ((ask middle place.lhs).addFrom place.symbol place.lhs) :=
      .of_add whole.faithful rfl still (.trailing member still trailing.1)
    refine ⟨whole.trans added, ?_, ?_⟩
    · intro element inside visible
      exact (asked.trans added).adds.below _ element (begun element inside visible)
    · -- the left-hand side is entered by now, if only with its seed
      intro _ element inside
      have seeded := (onward.descends asked).adds.seeded found element inside
      exact Assignment.mem_get_add.mpr (.inr ⟨rfl, seeded⟩)
  · rw [if_neg trailing]
    refine ⟨leading, begun, ?_⟩
    intro empty element inside
    obtain own : place.lhs = place.symbol := by
      by_contra different
      exact trailing ⟨empty, different⟩
    rw [own] at inside
    exact onward.adds.seeded (leading.adds.kept _ entered) element inside

theorem Asks.later (asks : Asks grammar first seeds ask state)
    (kept : state.follow.Kept next.follow) : Asks grammar first seeds ask next :=
  fun other underway later => asks other underway (kept.trans later)

theorem foldl_visits_descends {places : List Occurrence}
    (underway : grammar.Underway first seeds state) (asks : Asks grammar first seeds ask state)
    (entered : (state.follow.find? symbol).isSome)
    (listed : ∀ place ∈ places, place ∈ grammar.occurrences ∧ place.symbol = symbol) :
    grammar.Descends first seeds state (places.foldl (visitByDescent first ask) state) ∧
      ∀ place ∈ places, first.FollowFed seeds
        (places.foldl (visitByDescent first ask) state).follow place := by
  induction places generalizing state with
  | nil => exact ⟨.refl underway.faithful, by simp⟩
  | cons place rest ih =>
    obtain ⟨⟨member, rfl⟩, others⟩ := List.forall_mem_cons.mp listed
    obtain ⟨visited, fed⟩ := visitByDescent_descends underway asks entered member
    obtain ⟨passed, later⟩ := ih (underway.descends visited) (asks.later visited.adds.kept)
      (visited.adds.kept _ entered) others
    rw [List.foldl_cons]
    exact ⟨visited.trans passed, List.forall_mem_cons.mpr ⟨fed.mono passed.adds.below, later⟩⟩

/-- A state with one more non-terminal entered, whose descent begins. -/
structure Enters (grammar : Grammar) (first seeds : Assignment) (symbol : Symbol)
    (state begun : FollowState) : Prop where
  cache : begun.cache = state.cache
  adds : grammar.AddsTo first seeds state.follow begun.follow
  entered : (begun.follow.find? symbol).isSome
  only : ∀ other, (begun.follow.find? other).isSome →
    (state.follow.find? other).isSome ∨ other = symbol
  start : symbol = grammar.start → .endOfInput ∈ begun.follow.get symbol
  fewer : (grammar.pending begun.follow).card < (grammar.pending state.follow).card

theorem enters_seeded (first seeds : Assignment) (known : symbol ∈ grammar.nonTerminals)
    (fresh : state.follow.find? symbol = none) :
    grammar.Enters first seeds symbol state
      (if symbol = grammar.start then
        (state.add symbol (seeds.get symbol)).add symbol (.singleton .endOfInput)
      else state.add symbol (seeds.get symbol)) := by
  have entered : ((state.follow.add symbol (seeds.get symbol)).find? symbol).isSome :=
    Assignment.isSome_find?_add.mpr (.inr rfl)
  have fewer := card_pending_add_lt known fresh (seeds.get symbol)
  have adds : grammar.AddsTo first seeds state.follow
      (state.follow.add symbol (seeds.get symbol)) := .single (.enter known)
  split
  · rename_i same
    subst same
    refine ⟨rfl, adds.tail (.ending entered), Assignment.isSome_find?_add.mpr (.inr rfl), ?_,
      fun _ => Assignment.mem_get_add.mpr (.inr ⟨rfl, SymbolSet.mem_singleton.mpr rfl⟩), ?_⟩
    · intro other found
      rcases Assignment.isSome_find?_add.mp found with found | same
      · exact Assignment.isSome_find?_add.mp found
      · exact .inr same
    · exact Nat.lt_of_le_of_lt
        (Finset.card_le_card (pending_subset (Assignment.kept_add _ _ _))) fewer
  · rename_i other
    exact ⟨rfl, adds, entered, fun _ found => Assignment.isSome_find?_add.mp found,
      fun same => absurd same other, fewer⟩

/-- Each level enters another non-terminal, so a depth above the number of those that are not
entered suffices. -/
theorem followByDescent_descends (depth : Nat) (underway : grammar.Underway first seeds state)
    (known : symbol ∈ grammar.nonTerminals)
    (enough : (grammar.pending state.follow).card < depth) :
    grammar.Descends first seeds state (grammar.followByDescent first seeds depth state symbol) ∧
      ((grammar.followByDescent first seeds depth state symbol).follow.find? symbol).isSome := by
  induction depth generalizing state symbol with
  | zero => exact absurd enough (Nat.not_lt_zero _)
  | succ depth ih =>
    unfold followByDescent
    split
    · rename_i found
      exact ⟨.refl underway.faithful, found⟩
    · rename_i fresh
      obtain ⟨begun, equal, enters⟩ : ∃ begun, (if symbol = grammar.start then
          (state.add symbol (seeds.get symbol)).add symbol (.singleton .endOfInput)
          else state.add symbol (seeds.get symbol)) = begun ∧
            grammar.Enters first seeds symbol state begun :=
        ⟨_, rfl, enters_seeded first seeds known (by simpa using fresh)⟩
      dsimp only
      rw [equal]
      -- from here on one non-terminal less is pending, so the depth below suffices
      have ready : grammar.Underway first seeds begun :=
        ⟨enters.cache ▸ underway.faithful, underway.adds.trans enters.adds⟩
      have asks : Asks grammar first seeds (grammar.followByDescent first seeds depth) begun := by
        intro next onward kept other declared
        have least : (grammar.pending next.follow).card ≤ (grammar.pending begun.follow).card :=
          Finset.card_le_card (pending_subset kept)
        have fewer := enters.fewer
        exact ih onward declared (by omega)
      have listed : ∀ place ∈ grammar.occurrences.filter (·.symbol = symbol),
          place ∈ grammar.occurrences ∧ place.symbol = symbol := by simp
      obtain ⟨passed, fed⟩ := foldl_visits_descends ready asks enters.entered listed
      refine ⟨⟨passed.faithful, enters.adds.trans passed.adds, ?_⟩,
        passed.adds.kept symbol enters.entered⟩
      intro other found
      rcases passed.served other found with earlier | served
      · rcases enters.only other earlier with before | rfl
        · exact .inl before
        · -- the symbol itself: all its places were visited
          refine .inr ⟨fun same => passed.adds.below _ _ (enters.start same), ?_⟩
          intro place member own
          exact fed place (List.mem_filter.mpr ⟨member, by simpa using own⟩)
      · exact .inr served

/-! ### Rounds of descents -/

theorem foldl_descents {symbols : List Symbol} (underway : grammar.Underway first seeds state)
    (listed : ∀ symbol ∈ symbols, symbol ∈ grammar.nonTerminals) :
    let last := symbols.foldl
      (grammar.followByDescent first seeds (grammar.nonTerminals.length + 1)) state
    grammar.Descends first seeds state last ∧
      ∀ symbol ∈ symbols, (last.follow.find? symbol).isSome := by
  induction symbols generalizing state with
  | nil => exact ⟨.refl underway.faithful, by simp⟩
  | cons symbol rest ih =>
    obtain ⟨known, others⟩ := List.forall_mem_cons.mp listed
    have few : (grammar.pending state.follow).card < grammar.nonTerminals.length + 1 :=
      Nat.lt_succ_of_le ((Finset.card_filter_le _ _).trans (List.toFinset_card_le _))
    obtain ⟨descended, found⟩ := followByDescent_descends _ underway known few
    obtain ⟨passed, entered⟩ := ih (underway.descends descended) others
    exact ⟨descended.trans passed, List.forall_mem_cons.mpr ⟨passed.adds.kept symbol found, entered⟩⟩

/-- What one round of descents makes of the sets of the round before. -/
structure Completes (grammar : Grammar) (first : Assignment) (early late : FollowState) : Prop where
  faithful : late.cache.Faithful first
  adds : grammar.AddsTo first early.follow .empty late.follow
  entered : ∀ symbol ∈ grammar.nonTerminals, (late.follow.find? symbol).isSome
  start : .endOfInput ∈ late.follow.get grammar.start
  fed : ∀ place ∈ grammar.occurrences, first.FollowFed early.follow late.follow place

theorem followDescents_completes (faithful : state.cache.Faithful first) :
    grammar.Completes first state (grammar.followDescents first state) := by
  have begun : grammar.Underway first state.follow ⟨.empty, state.cache⟩ := ⟨faithful, .refl⟩
  obtain ⟨descended, entered⟩ := foldl_descents begun fun _ listed => listed
  -- nothing was entered before the round, so all that is entered is served
  have served : ∀ symbol ∈ grammar.nonTerminals, grammar.Served first state.follow
      (grammar.followDescents first state).follow symbol := by
    intro symbol known
    rcases descended.served symbol (entered symbol known) with before | served
    · simp at before
    · exact served
  refine ⟨descended.faithful, descended.adds, entered, ?_, ?_⟩
  · exact (served grammar.start grammar.start_mem).1 rfl
  · intro place member
    exact (served place.symbol (occurrence_mem_nonTerminals member)).2 place member rfl

end Grammar

end Predictive
