import Predictive.Proofs.DescentTraces
import Predictive.Proofs.ExactSets

/-! How many passes the sets take. A loop stops when no item of a pass enlarged the set that it
adds to, or when a pass left the sets that it was given; either way the size of the sets stayed as
it was. So a loop makes no more passes than elements fit into the sets, and one that adds nothing;
and where each pass hands on all that the passes before it found, no more than there are
non-terminals, and one. -/

set_option autoImplicit false

namespace Predictive

/-! ### Loops with their number of passes -/

section
variable {State Item View : Type} {pass : State → State} {stops other : State → State → Prop}
  {size : State → Nat} {state last : State}

/-- A loop as `LoopsTo` has it, with the number of its passes. -/
inductive LoopsIn (pass : State → State) (stops : State → State → Prop) :
    Nat → State → State → Prop where
  | stop {state : State} (settled : stops state (pass state)) :
      LoopsIn pass stops 1 state (pass state)
  | again {passes : Nat} {state last : State} (changed : ¬ stops state (pass state))
      (later : LoopsIn pass stops passes (pass state) last) :
      LoopsIn pass stops (passes + 1) state last

/-- A loop makes no pass after one that says to stop. -/
theorem LoopsTo.exists_loopsIn {passes : Nat} (loops : LoopsTo pass stops state last)
    (enough : stops (pass^[passes] state) (pass^[passes + 1] state)) :
    ∃ made ≤ passes + 1, LoopsIn pass stops made state last := by
  induction loops generalizing passes with
  | stop settled => exact ⟨1, Nat.le_add_left 1 passes, .stop settled⟩
  | again changed _ ih =>
    cases passes with
    | zero => exact absurd enough changed
    | succ passes =>
      obtain ⟨made, few, loops⟩ := ih enough
      exact ⟨made + 1, Nat.succ_le_succ few, .again changed loops⟩

theorem LoopsIn.congr {passes : Nat} (loops : LoopsIn pass stops passes state last)
    (holds : State → Prop) (kept : ∀ state, holds state → holds (pass state))
    (same : ∀ state, holds state → (stops state (pass state) ↔ other state (pass state)))
    (initial : holds state) : LoopsIn pass other passes state last := by
  induction loops with
  | stop settled => exact .stop ((same _ initial).mp settled)
  | again changed _ ih =>
    exact .again (fun settled => changed ((same _ initial).mpr settled)) (ih (kept _ initial))

/-- A loop makes no more than so many passes, and one more pass would not change what it ends
with. -/
structure EndsWithin (pass : State → State) (stops : State → State → Prop) (view : State → View)
    (limit : Nat) (start last : State) : Prop where
  counted : ∃ passes ≤ limit, LoopsIn pass stops passes start last
  stays : view (pass last) = view last

variable {view : State → View} {limit more : Nat}

theorem EndsWithin.mono (ends : EndsWithin pass stops view limit state last) (least : limit ≤ more) :
    EndsWithin pass stops view more state last := by
  obtain ⟨passes, few, loops⟩ := ends.counted
  exact ⟨⟨passes, few.trans least, loops⟩, ends.stays⟩

theorem EndsWithin.congr (ends : EndsWithin pass stops view limit state last)
    (holds : State → Prop) (kept : ∀ state, holds state → holds (pass state))
    (same : ∀ state, holds state → (stops state (pass state) ↔ other state (pass state)))
    (initial : holds state) : EndsWithin pass other view limit state last := by
  obtain ⟨passes, few, loops⟩ := ends.counted
  exact ⟨⟨passes, few, loops.congr holds kept same initial⟩, ends.stays⟩

/-! ### The change flag -/

/-- The change flag of a pass: whether some item enlarges what it adds to. -/
def changes (step : State → Item → State) (own : State → Item → Nat) : State → List Item → Bool
  | _, [] => false
  | state, item :: rest =>
    decide (own state item < own (step state item) item) || changes step own (step state item) rest

/-- Where the size grows by what an item adds to its own set, the flag tells whether it changed. -/
theorem changes_eq_false_iff {step : State → Item → State} {own : State → Item → Nat}
    (grows : ∀ state item, size state ≤ size (step state item))
    (balanced : ∀ state item, size (step state item) + own state item =
      size state + own (step state item) item) (state : State) (items : List Item) :
    changes step own state items = false ↔ size (items.foldl step state) = size state := by
  induction items generalizing state with
  | nil => simp [changes]
  | cons item rest ih =>
    have first := grows state item
    have later : size (step state item) ≤ size (rest.foldl step (step state item)) :=
      List.foldlRecOn (motive := fun next => size (step state item) ≤ size next) _ _ (Nat.le_refl _)
        fun next larger item _ => larger.trans (grows next item)
    have balance := balanced state item
    -- nothing shrinks the state, so its size is the same in the end only if no item enlarged it
    rw [changes, Bool.or_eq_false_iff, decide_eq_false_iff_not, ih, List.foldl_cons]
    omega

end

/-- States of bounded size cannot grow in more passes than the size can grow. -/
theorem Inflates.exists_settled_pass {State Item View : Type} {step : State → Item → State}
    {size : State → Nat} {view : State → View} {holds : State → Prop}
    {settled : View → Item → Prop} {items : List Item} {bound : Nat}
    (inflates : Inflates step size view holds settled items bound) {state : State}
    (holding : holds state) :
    ∃ passes ≤ bound - size state,
      size ((items.foldl step)^[passes + 1] state) = size ((items.foldl step)^[passes] state) := by
  -- by the room below the bound, which every pass but a settled one takes from
  induction room : bound - size state using Nat.strong_induction_on generalizing state with
  | _ room ih =>
    by_cases same : size (items.foldl step state) = size state
    · exact ⟨0, Nat.zero_le _, same⟩
    · have larger := inflates.size_le_foldl state
      have next := inflates.holds_foldl holding
      have fits := inflates.bounded _ next
      obtain ⟨passes, few, settled⟩ := ih _ (by omega) next rfl
      exact ⟨passes + 1, by omega, settled⟩

namespace Assignment

/-- The size grows by what the set of the symbol gains. -/
theorem size_add_balance (assignment : Assignment) (symbol : Symbol) (set : SymbolSet) :
    (assignment.add symbol set).size + (assignment.get symbol).size =
      assignment.size + ((assignment.add symbol set).get symbol).size := by
  obtain ⟨entries⟩ := assignment
  unfold add
  -- by the entries, as the first one of the symbol is both what is read and what is added to
  induction entries with
  | nil =>
    simp only [addEntry, size_cons, get_cons, if_true]
    exact Nat.add_comm _ _
  | cons first rest ih =>
    obtain ⟨name, old⟩ := first
    by_cases same : name = symbol
    · simp only [addEntry, if_pos same, size_cons, get_cons]
      omega
    · simp only [addEntry, if_neg same, size_cons, get_cons]
      dsimp only at ih
      omega

end Assignment

namespace Grammar

variable {grammar : Grammar} {first : Assignment} {state : FollowState}

/-! ### The loops -/

/-- The change flag of a pass for FIRST. -/
def firstChanges (grammar : Grammar) (first : Assignment) : Bool :=
  changes (fun first production => first.add production.lhs (firstOfSequence first production.rhs))
    (fun first production => (first.get production.lhs).size) first grammar.productions

theorem firstChanges_eq_false_iff (first : Assignment) :
    grammar.firstChanges first = false ↔ (grammar.firstPass first).size = first.size :=
  changes_eq_false_iff (fun first _ => first.size_le_add _ _)
    (fun first _ => first.size_add_balance _ _) first grammar.productions

/-- The change flag of a pass for FOLLOW. -/
def followChanges (grammar : Grammar) (first : Assignment) (state : FollowState) : Bool :=
  changes (FollowState.visit first) (fun state place => (state.follow.get place.symbol).size) state
    grammar.occurrences

theorem size_visit_balance (state : FollowState) (place : Occurrence) :
    state.size ≤ (FollowState.visit first state place).size ∧
      (FollowState.visit first state place).size + (state.follow.get place.symbol).size =
        state.size + ((FollowState.visit first state place).follow.get place.symbol).size := by
  unfold FollowState.visit
  generalize state.cache.request first place.rest = answer
  obtain ⟨found, cache⟩ := answer
  simp only [FollowState.addFrom, FollowState.add, FollowState.size]
  let added := state.follow.add place.symbol (found.without .epsilon)
  have grows : state.follow.size ≤ added.size := state.follow.size_le_add _ _
  have balance : added.size + _ = _ + (added.get place.symbol).size :=
    state.follow.size_add_balance _ _
  split
  · -- both additions of a place are to the same set
    have further := added.size_le_add place.symbol (added.get place.lhs)
    have again := added.size_add_balance place.symbol (added.get place.lhs)
    refine ⟨grows.trans further, ?_⟩
    dsimp only [added] at balance again ⊢
    omega
  · exact ⟨grows, balance⟩

theorem followChanges_eq_false_iff (state : FollowState) :
    grammar.followChanges first state = false ↔
      (grammar.followPass first state).size = state.size :=
  changes_eq_false_iff (fun state place => (size_visit_balance state place).1)
    (fun state place => (size_visit_balance state place).2) state grammar.occurrences

theorem view_firstPass_firstByPasses (grammar : Grammar) :
    (grammar.firstPass grammar.firstByPasses).view = grammar.firstByPasses.view := by
  have inflates := grammar.firstPass_inflates
  obtain ⟨within, sound⟩ :=
    inflates.holds_foldl ⟨grammar.firstByPasses_within, grammar.firstByPasses_sound⟩
  funext symbol
  ext element
  constructor
  · -- what a further pass finds is there by the rules, and the passes found all of that
    intro member
    exact (mem_firstByPasses_get_iff (within.owner member)).mpr (sound symbol element member)
  · intro member
    refine List.foldlRecOn (motive := fun later : Assignment => element ∈ later.get symbol) _ _
      member fun later inside production _ => ?_
    exact Assignment.below_add _ _ _ symbol element inside

/-- The loop for FIRST, which stops when no production enlarged a set. -/
theorem firstByPasses_endsWithin (grammar : Grammar) :
    EndsWithin grammar.firstPass (fun early _ => grammar.firstChanges early = false)
      Assignment.view (grammar.nonTerminals.length * (grammar.rhsLeaves.length + 1) + 1) .empty
      grammar.firstByPasses := by
  obtain ⟨passes, few, settled⟩ :=
    grammar.firstPass_inflates.exists_settled_pass grammar.empty_within_sound
  have early : passes < grammar.passLimit := Nat.lt_succ_of_le (few.trans (Nat.sub_le _ _))
  have loops : LoopsTo grammar.firstPass (fun early late => late.size = early.size) .empty
      grammar.firstByPasses := untilStable_loopsTo early settled
  obtain ⟨made, least, counted⟩ := loops.exists_loopsIn settled
  have ends : EndsWithin grammar.firstPass (fun early late => late.size = early.size)
      Assignment.view (passes + 1) .empty grammar.firstByPasses :=
    ⟨⟨made, least, counted⟩, grammar.view_firstPass_firstByPasses⟩
  exact (ends.congr (fun _ => True) (fun _ _ => trivial)
    (fun first _ => (firstChanges_eq_false_iff first).symm) trivial).mono early

/-- A grammar can need all of these passes. -/
example :
    let grammar : Grammar := ⟨[⟨1, .nonterminal "S", [.epsilon]⟩], .nonterminal "S", by decide⟩
    LoopsIn grammar.firstPass (fun early _ => grammar.firstChanges early = false)
      (grammar.nonTerminals.length * (grammar.rhsLeaves.length + 1) + 1) .empty
      grammar.firstByPasses :=
  .again (by decide) (.stop (by decide))

/-- A loop of passes that hand on what they find makes no more than one pass for each
non-terminal, and one that adds nothing. -/
theorem HandsOn.endsWithin {pass : FollowState → FollowState} {holds : FollowState → Prop}
    (handsOn : grammar.HandsOn first pass holds) (initial : holds state) {limit : Nat}
    (enough : grammar.nonTerminals.length < limit) :
    EndsWithin pass (fun early late => late.size = early.size) (fun state => state.follow.view)
      (grammar.nonTerminals.length + 1) state (untilStable pass FollowState.size limit state) := by
  have loops := handsOn.loopsTo initial enough
  refine ⟨loops.exists_loopsIn (handsOn.size_iterate initial), ?_⟩
  obtain ⟨before, held, same, equal⟩ := loops.ends holds handsOn.kept initial
  rw [equal]
  -- the last pass left closed sets, and what a further pass finds belongs to any of these
  have closed := handsOn.closed_of_size held same
  have once := handsOn.kept before held
  have further := (handsOn.sound _ (handsOn.kept _ once)).below_closed closed
  funext symbol
  ext element
  exact ⟨further symbol element, handsOn.below _ once symbol element⟩

section
variable {cache : SequenceCache} (faithful : cache.Faithful first)
include faithful

/-- The loop for FOLLOW, which stops when no place enlarged a set. -/
theorem followByPasses_endsWithin :
    EndsWithin (grammar.followPass first)
      (fun early _ => grammar.followChanges first early = false) (fun state => state.follow.view)
      (grammar.nonTerminals.length * (grammar.rhsLeaves.length + 1) + 1)
      ⟨grammar.startFollow, cache⟩ (grammar.followByPasses first cache) := by
  have begun : grammar.FollowSound first ⟨grammar.startFollow, cache⟩ ∧
      .endOfInput ∈ grammar.startFollow.get grammar.start :=
    ⟨followSound_start faithful, grammar.mem_startFollow.mpr ⟨rfl, rfl⟩⟩
  have ends := (followPass_handsOn grammar first).endsWithin begun grammar.length_lt_passLimit
  exact (ends.mono grammar.length_lt_passLimit).congr (fun _ => True) (fun _ _ => trivial)
    (fun state _ => (followChanges_eq_false_iff state).symm) trivial

/-- The loop of the rounds, which stops when a round leaves the sets that it was given. -/
theorem followByRecursion_endsWithin :
    EndsWithin (grammar.followDescents first) (fun early late => early.follow.Equals late.follow)
      (fun state => state.follow.view)
      (grammar.nonTerminals.length * (grammar.rhsLeaves.length + 1) + 2)
      ⟨.empty, cache⟩ (grammar.followByRecursion first cache) := by
  have sound : grammar.FollowSound first ⟨.empty, cache⟩ := followSound_empty faithful
  have enough : grammar.nonTerminals.length < grammar.passLimit + 1 :=
    Nat.lt_succ_of_lt grammar.length_lt_passLimit
  have ends := (followDescents_handsOn grammar first).endsWithin sound enough
  exact (ends.mono enough).congr (grammar.Rounded first) (fun _ rounded => rounded.followDescents)
    (fun _ rounded => rounded.size_eq_iff) ⟨sound, .inl rfl⟩

end

end Grammar

/-! ### What a session computes -/

namespace Session

/-- Whatever a session was asked before it computes its sets, the three loops end within their
numbers of passes, and one more pass would not change what they end with. However deep descents
may go, those for FIRST never have more in progress than there are non-terminals, and a round of
those for FOLLOW enters each non-terminal once. -/
theorem passes_bounded (grammar : Grammar) (strategy : Strategy) (requests : List Request) :
    let count := grammar.nonTerminals.length
    let leaves := grammar.rhsLeaves.length
    let session := ((new grammar strategy).after requests).withFirst
    let first := session.firstAssignment
    EndsWithin grammar.firstPass (fun early _ => grammar.firstChanges early = false)
        Assignment.view (count * (leaves + 1) + 1) .empty grammar.firstByPasses ∧
      EndsWithin (grammar.followPass first)
        (fun early _ => grammar.followChanges first early = false) (fun state => state.follow.view)
        (count * (leaves + 1) + 1) ⟨grammar.startFollow, session.cache⟩
        (grammar.followByPasses first session.cache) ∧
      EndsWithin (grammar.followDescents first)
        (fun early late => early.follow.Equals late.follow) (fun state => state.follow.view)
        (count * (leaves + 1) + 2) ⟨.empty, session.cache⟩
        (grammar.followByRecursion first session.cache) ∧
      (∀ more,
        let run := grammar.firstRun (count + 1 + more)
        run.finished = grammar.firstByRecursion ∧
          ∀ progress ∈ run.notes, progress.Nodup ∧ progress.length ≤ count) ∧
      ∀ more state,
        let run := grammar.followRun first (count + 1 + more) state
        run.state = grammar.followDescents first state ∧ run.entered.Nodup ∧
          ∀ symbol, symbol ∈ run.entered ↔ symbol ∈ grammar.nonTerminals := by
  intro count leaves session first
  have faithful : session.cache.Faithful first := by
    obtain ⟨onward, computed⟩ := (continues_new grammar strategy requests).coherent.withFirst
    have kept := onward.coherent.cache
    rwa [onward.grammar, onward.strategy, ← computed] at kept
  refine ⟨grammar.firstByPasses_endsWithin, Grammar.followByPasses_endsWithin faithful,
    Grammar.followByRecursion_endsWithin faithful, ?_, ?_⟩
  · intro more
    obtain ⟨together, same⟩ := grammar.firstRun_spec (count + 1 + more)
    refine ⟨same (by omega), fun progress noted => ?_⟩
    exact ⟨(together progress noted).distinct, (together progress noted).length_le⟩
  · intro more state
    obtain ⟨together, whole⟩ := grammar.followRun_spec first (count + 1 + more) state
    obtain ⟨same, all⟩ := whole (by omega)
    exact ⟨same, together.distinct, fun symbol => ⟨together.declared symbol, fun known => all known⟩⟩

end Session

end Predictive
