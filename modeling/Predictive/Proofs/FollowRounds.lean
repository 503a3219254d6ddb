import Predictive.Proofs.FollowDescent

/-! FOLLOW sets by rounds of descents. A round keeps all sets and feeds every place, so the rounds
end with the sets that the passes compute from the same FIRST sets, whatever these are. Neither the
limit of the rounds nor the depth of a descent is ever reached. -/

set_option autoImplicit false

namespace Predictive

namespace Grammar

/-! ### What a round makes of the sets before it -/

variable {grammar : Grammar} {first : Assignment} {element symbol : Symbol} {state : FollowState}
  {place : Occurrence}

section
variable {seeds early late : Assignment}

theorem AddsTo.distinct (adds : grammar.AddsTo first seeds early late)
    (distinct : (early.entries.map Prod.fst).Nodup) : (late.entries.map Prod.fst).Nodup := by
  induction adds with
  | refl => exact distinct
  | tail _ step ih =>
    obtain ⟨symbol, set, rfl, _⟩ := step.exists_add
    exact Assignment.nodup_addEntry ih

theorem AddsTo.known (adds : grammar.AddsTo first seeds .empty late)
    (entered : (late.find? symbol).isSome) : symbol ∈ grammar.nonTerminals := by
  induction adds with
  | refl => simp at entered
  | tail _ step ih =>
    cases step with
    | enter known => exact (Assignment.isSome_find?_add.mp entered).elim ih fun same => same ▸ known
    | ending =>
      exact (Assignment.isSome_find?_add.mp entered).elim ih fun same => same ▸ grammar.start_mem
    | leading member =>
      exact (Assignment.isSome_find?_add.mp entered).elim ih
        fun same => same ▸ occurrence_mem_nonTerminals member
    | trailing member =>
      exact (Assignment.isSome_find?_add.mp entered).elim ih
        fun same => same ▸ occurrence_mem_nonTerminals member

theorem AddsTo.reached
    (known : ∀ symbol, ∀ element ∈ seeds.get symbol,
      ∃ steps, grammar.FollowReach first element steps symbol)
    (adds : grammar.AddsTo first seeds .empty late) :
    ∀ symbol, ∀ element ∈ late.get symbol,
      ∃ steps, grammar.FollowReach first element steps symbol := by
  induction adds with
  | refl => exact fun _ _ member => absurd member (SymbolSet.not_mem_empty _)
  | tail _ step ih =>
    intro symbol element member
    cases step with
    | enter =>
      rcases Assignment.mem_get_add.mp member with old | ⟨rfl, added⟩
      · exact ih symbol element old
      · exact known _ element added
    | ending =>
      rcases Assignment.mem_get_add.mp member with old | ⟨rfl, added⟩
      · exact ih symbol element old
      · exact ⟨0, .start (SymbolSet.mem_singleton.mp added)⟩
    | leading listed =>
      rcases Assignment.mem_get_add.mp member with old | ⟨rfl, added⟩
      · exact ih symbol element old
      · obtain ⟨begun, visible⟩ := SymbolSet.mem_without.mp added
        exact ⟨0, .leading listed begun visible⟩
    | trailing listed _ empty =>
      rcases Assignment.mem_get_add.mp member with old | ⟨rfl, added⟩
      · exact ih symbol element old
      · obtain ⟨steps, reach⟩ := ih _ element added
        exact ⟨steps + 1, .trailing listed empty reach⟩

end

theorem followDescents_handsOn (grammar : Grammar) (first : Assignment) :
    grammar.HandsOn first (grammar.followDescents first) (grammar.FollowSound first) where
  kept := by
    intro state sound
    have completes : grammar.Completes first state _ := followDescents_completes sound.faithful
    exact ⟨completes.faithful, completes.adds.distinct (by simp [Assignment.empty]),
      completes.adds.reached sound.reached⟩
  sound := fun _ sound => sound
  below := by
    -- every non-terminal is entered anew, with what it had
    intro state sound symbol element member
    have completes : grammar.Completes first state _ := followDescents_completes sound.faithful
    obtain ⟨_, reach⟩ := sound.reached symbol element member
    exact completes.adds.seeded (completes.entered symbol reach.known) element member
  start := fun _ sound => (followDescents_completes sound.faithful).start
  fed := fun _ sound => (followDescents_completes sound.faithful).fed

theorem followSound_empty {cache : SequenceCache} (faithful : cache.Faithful first) :
    grammar.FollowSound first ⟨.empty, cache⟩ where
  faithful := faithful
  distinct := by simp [Assignment.empty]
  reached := fun _ _ member => absurd member (SymbolSet.not_mem_empty _)

/-- What is known between two rounds: nothing at first, and a set for each non-terminal then. -/
def Rounded (grammar : Grammar) (first : Assignment) (state : FollowState) : Prop :=
  grammar.FollowSound first state ∧ (state.follow = .empty ∨
    ∀ symbol, (state.follow.find? symbol).isSome ↔ symbol ∈ grammar.nonTerminals)

theorem entered_followDescents (faithful : state.cache.Faithful first) (symbol : Symbol) :
    ((grammar.followDescents first state).follow.find? symbol).isSome ↔
      symbol ∈ grammar.nonTerminals := by
  have completes : grammar.Completes first state _ := followDescents_completes faithful
  exact ⟨completes.adds.known, completes.entered symbol⟩

theorem Rounded.followDescents (rounded : grammar.Rounded first state) :
    grammar.Rounded first (grammar.followDescents first state) :=
  ⟨(followDescents_handsOn grammar first).kept _ rounded.1,
    .inr (entered_followDescents rounded.1.faithful)⟩

/-- A round adds no element if and only if it leaves sets that equal those before it. -/
theorem Rounded.size_eq_iff (rounded : grammar.Rounded first state) :
    (grammar.followDescents first state).size = state.size ↔
      state.follow.Equals (grammar.followDescents first state).follow := by
  obtain ⟨sound, entered⟩ := rounded
  have handsOn := followDescents_handsOn grammar first
  have grows := handsOn.below state sound
  have later := handsOn.kept state sound
  constructor
  · intro same
    have back := grows.antisymm_of_size sound.distinct later.distinct same
    intro symbol
    refine ⟨?_, fun element => ⟨grows symbol element, back symbol element⟩⟩
    rw [entered_followDescents sound.faithful]
    rcases entered with fresh | entered
    · -- a first round always adds the end of input
      have begun := back _ _ (handsOn.start state sound)
      rw [fresh] at begun
      exact absurd begun (SymbolSet.not_mem_empty _)
    · exact entered symbol
  · intro equals
    have back : (grammar.followDescents first state).follow.Below state.follow :=
      fun symbol element => ((equals symbol).2 element).mpr
    exact Nat.le_antisymm (back.size_le later.distinct sound.distinct)
      (grows.size_le sound.distinct later.distinct)

/-! ### The depth of a descent -/

section
variable {seeds : Assignment} {ask other : FollowState → Symbol → FollowState}

theorem visitByDescent_kept (keeps : ∀ (state : FollowState) symbol, state.follow.Kept (ask state symbol).follow)
    (state : FollowState) (place : Occurrence) :
    state.follow.Kept (visitByDescent first ask state place).follow := by
  have asked (middle : FollowState) (trailing : Bool) : middle.follow.Kept
      (if trailing && place.lhs ≠ place.symbol then
        (ask middle place.lhs).addFrom place.symbol place.lhs
      else middle).follow := by
    split
    · exact (keeps middle place.lhs).trans (Assignment.kept_add _ _ _)
    · exact .refl _
  unfold visitByDescent
  by_cases ending : place.rest.isEmpty = true
  · simp only [ending, if_true]
    exact asked state true
  · simp only [ending, Bool.false_eq_true, if_false]
    let middle := FollowState.add { state with cache := (state.cache.request first place.rest).2 }
      place.symbol ((state.cache.request first place.rest).1.without .epsilon)
    have added : state.follow.Kept middle.follow := Assignment.kept_add _ _ _
    exact added.trans (asked middle _)

theorem followByDescent_kept (depth : Nat) (state : FollowState) (symbol : Symbol) :
    state.follow.Kept (grammar.followByDescent first seeds depth state symbol).follow := by
  induction depth generalizing state symbol with
  | zero => exact .refl _
  | succ depth ih =>
    unfold followByDescent
    split
    · exact .refl _
    · dsimp only
      refine List.foldlRecOn (motive := fun last : FollowState => state.follow.Kept last.follow) _ _
        ?_ fun next kept place _ => kept.trans (visitByDescent_kept ih next place)
      split
      · exact (Assignment.kept_add _ _ _).trans (Assignment.kept_add _ _ _)
      · exact Assignment.kept_add _ _ _

theorem visitByDescent_congr (member : place ∈ grammar.occurrences)
    (same : ∀ next : FollowState, state.follow.Kept next.follow →
      ∀ symbol ∈ grammar.nonTerminals, ask next symbol = other next symbol) :
    visitByDescent first ask state place = visitByDescent first other state place := by
  have known := lhs_mem_of_occurrence member
  unfold visitByDescent
  by_cases ending : place.rest.isEmpty = true
  · simp only [ending, if_true, same state (.refl _) _ known]
  · simp only [ending, Bool.false_eq_true, if_false]
    rw [same _ (Assignment.kept_add _ _ _) _ known]

theorem foldl_visitByDescent_congr {places : List Occurrence}
    (listed : ∀ place ∈ places, place ∈ grammar.occurrences)
    (keeps : ∀ (state : FollowState) symbol, state.follow.Kept (ask state symbol).follow)
    (same : ∀ next : FollowState, state.follow.Kept next.follow →
      ∀ symbol ∈ grammar.nonTerminals, ask next symbol = other next symbol) :
    places.foldl (visitByDescent first ask) state = places.foldl (visitByDescent first other) state := by
  induction places generalizing state with
  | nil => rfl
  | cons place rest ih =>
    obtain ⟨member, others⟩ := List.forall_mem_cons.mp listed
    rw [List.foldl_cons, List.foldl_cons, ← visitByDescent_congr member same]
    exact ih others fun next kept => same next ((visitByDescent_kept keeps state place).trans kept)

/-- Two depths that exceed the number of pending non-terminals make no difference. -/
theorem followByDescent_depth {depth more : Nat} (known : symbol ∈ grammar.nonTerminals)
    (enough : (grammar.pending state.follow).card < depth)
    (plenty : (grammar.pending state.follow).card < more) :
    grammar.followByDescent first seeds depth state symbol =
      grammar.followByDescent first seeds more state symbol := by
  induction depth generalizing more state symbol with
  | zero => exact absurd enough (Nat.not_lt_zero _)
  | succ depth ih =>
    cases more with
    | zero => exact absurd plenty (Nat.not_lt_zero _)
    | succ more =>
      unfold followByDescent
      split
      · rfl
      · rename_i fresh
        have enters := enters_seeded first seeds known (by simpa using fresh)
        -- past this entry one non-terminal less is pending, so the depths below suffice again
        refine foldl_visitByDescent_congr (fun _ listed => List.mem_of_mem_filter listed)
          (followByDescent_kept depth) ?_
        intro next kept other declared
        have fewer := enters.fewer
        have least : (grammar.pending next.follow).card ≤ _ :=
          Finset.card_le_card (pending_subset kept)
        exact ih declared (by omega) (by omega)

end

/-- No descent of a round is cut short: however deep they may go, the round is the same. -/
theorem followDescents_depth (first : Assignment) (state : FollowState) {depth : Nat}
    (enough : grammar.nonTerminals.length < depth) :
    grammar.nonTerminals.foldl (grammar.followByDescent first state.follow depth)
      ⟨.empty, state.cache⟩ = grammar.followDescents first state := by
  refine List.foldl_ext _ _ _ fun next symbol known => ?_
  have few : (grammar.pending next.follow).card ≤ grammar.nonTerminals.length :=
    (Finset.card_filter_le _ _).trans (List.toFinset_card_le _)
  exact followByDescent_depth known (by omega) (by omega)

section
variable {cache : SequenceCache} (faithful : cache.Faithful first)
include faithful

/-- The loop of the rounds, which stops when a round leaves the sets that it was given. -/
theorem followByRecursion_loopsTo :
    LoopsTo (grammar.followDescents first) (fun early late => early.follow.Equals late.follow)
      ⟨.empty, cache⟩ (grammar.followByRecursion first cache) := by
  have sound : grammar.FollowSound first ⟨.empty, cache⟩ := followSound_empty faithful
  have loops := (followDescents_handsOn grammar first).loopsTo sound
    (Nat.lt_succ_of_lt grammar.length_lt_passLimit)
  exact loops.congr (grammar.Rounded first) (fun _ rounded => rounded.followDescents)
    (fun _ rounded => rounded.size_eq_iff) ⟨sound, .inl rfl⟩

theorem followByRecursion_least :
    grammar.LeastFollow first (grammar.followByRecursion first cache).follow := by
  obtain ⟨sound, closed⟩ := (followDescents_handsOn grammar first).untilStable_sound
    (followSound_empty faithful) (Nat.lt_succ_of_lt grammar.length_lt_passLimit)
  exact sound.least closed

end

/-- Whatever the FIRST sets are, the rounds of descents end, with the FOLLOW sets that the passes
compute: the least sets that hold the end of input behind the start symbol and what each place
contributes. -/
theorem recursive_follow_least (grammar : Grammar) (first : Assignment)
    (cache other : SequenceCache) (faithful : cache.Faithful first)
    (alike : other.Faithful first) :
    (∀ (state : FollowState) (depth : Nat), grammar.nonTerminals.length < depth →
      grammar.nonTerminals.foldl (grammar.followByDescent first state.follow depth)
        ⟨.empty, state.cache⟩ = grammar.followDescents first state) ∧
      LoopsTo (grammar.followDescents first) (fun early late => early.follow.Equals late.follow)
        ⟨.empty, cache⟩ (grammar.followByRecursion first cache) ∧
      LoopsTo (grammar.followPass first) (fun early late => late.size = early.size)
        ⟨grammar.startFollow, other⟩ (grammar.followByPasses first other) ∧
      (∀ symbol, ((grammar.followByRecursion first cache).follow.find? symbol).isSome ↔
        symbol ∈ grammar.nonTerminals) ∧
      (∀ symbol element, element ∈ (grammar.followByRecursion first cache).follow.get symbol ↔
        element ∈ (grammar.followByPasses first other).follow.get symbol) ∧
      grammar.LeastFollow first (grammar.followByRecursion first cache).follow := by
  have least : grammar.LeastFollow first _ := followByRecursion_least faithful
  refine ⟨fun state depth enough => followDescents_depth first state enough,
    followByRecursion_loopsTo faithful, followByPasses_loopsTo alike, ?_,
    fun _ _ => least.mem_iff (followByPasses_least alike), least⟩
  intro symbol
  obtain ⟨before, rounded, _, equal⟩ := (followByRecursion_loopsTo faithful).ends
    (grammar.Rounded first) (fun _ rounded => rounded.followDescents)
    ⟨followSound_empty faithful, .inl rfl⟩
  rw [equal]
  exact entered_followDescents rounded.1.faithful symbol

/-- Left-recursive, with two non-terminals that follow each other. -/
def handedSample : Grammar where
  productions :=
    [⟨1, .nonterminal "A", [.nonterminal "A", .nonterminal "B"]⟩,
     ⟨2, .nonterminal "A", [.terminal "x"]⟩,
     ⟨3, .nonterminal "B", [.terminal "y", .nonterminal "A"]⟩,
     ⟨4, .nonterminal "B", [.epsilon]⟩,
     ⟨5, .nonterminal "S", [.nonterminal "A", .terminal "c"]⟩]
  start := .nonterminal "S"
  sound := by decide

/-- Nothing is known of FIRST of `B` and `S` here. -/
theorem recursive_follow_least_handedSample :
    let first := Assignment.empty.add (.nonterminal "A") (.singleton (.terminal "x"))
    (∀ symbol element,
      element ∈ (handedSample.followByRecursion first ⟨[], 0, 0⟩).follow.get symbol ↔
        element ∈ (handedSample.followByPasses first ⟨[], 2, 1⟩).follow.get symbol) ∧
      .terminal "c" ∈ (handedSample.followByRecursion first ⟨[], 0, 0⟩).follow.get (.nonterminal "B") ∧
      .terminal "y" ∉ (handedSample.followByRecursion first ⟨[], 0, 0⟩).follow.get (.nonterminal "A") := by
  intro first
  obtain ⟨_, _, _, _, same, _⟩ := recursive_follow_least handedSample first ⟨[], 0, 0⟩ ⟨[], 2, 1⟩
    (.empty 0 0) (.empty 2 1)
  exact ⟨same, by decide, by decide⟩

end Grammar

end Predictive
