import Predictive.Sets.Room

/-! Descents in a room for calls. Where there is room for the calls that a descent makes, it finds
what the descent without a room finds, and a room that has place for one call more than there are
non-terminals is large enough. A chain of non-terminals that is longer than the room lets the
descent for FIRST fail. -/

set_option autoImplicit false

namespace Predictive

/-- What is computed in a room is what is computed without, but fails for want of room for some
calls, of which there are at most so many. -/
inductive InRoom (carries : List Symbol → Bool) (most : Nat) {Value : Type} :
    Option Value → Value → Prop where
  | done (value : Value) : InRoom carries most (some value) value
  | full (value : Value) (calls : List Symbol) (few : calls.length ≤ most)
      (refused : carries calls = false) : InRoom carries most none value

namespace InRoom

variable {carries : List Symbol → Bool} {most : Nat} {Value Result Item : Type}
  {found : Option Value} {value : Value}

theorem eq_of_some {other : Value} (room : InRoom carries most (some other) value) :
    other = value := by
  cases room
  rfl

theorem eq_some (room : InRoom carries most found value)
    (ample : ∀ calls : List Symbol, calls.length ≤ most → carries calls = true) :
    found = some value := by
  cases room with
  | done => rfl
  | full _ calls few refused =>
    rw [ample calls few] at refused
    cases refused

theorem bind {next : Value → Option Result} (room : InRoom carries most found value)
    (plain : Value → Result) (later : InRoom carries most (next value) (plain value)) :
    InRoom carries most (found.bind next) (plain value) := by
  cases room with
  | done => exact later
  | full _ calls few refused => exact .full _ calls few refused

theorem map (change : Value → Result) (room : InRoom carries most found value) :
    InRoom carries most (found.map change) (change value) := by
  cases room with
  | done => exact .done _
  | full _ calls few refused => exact .full _ calls few refused

theorem foldlM {step : Value → Item → Option Value} {plain : Value → Item → Value}
    (steps : ∀ value item, InRoom carries most (step value item) (plain value item))
    (items : List Item) (value : Value) :
    InRoom carries most (items.foldlM step value) (items.foldl plain value) := by
  induction items generalizing value with
  | nil => exact .done _
  | cons item rest ih =>
    rw [List.foldlM_cons, List.foldl_cons]
    exact (steps value item).bind (rest.foldl plain) (ih _)

theorem untilStable {pass : Value → Option Value} {plain : Value → Value} (size : Value → Nat)
    (passes : ∀ value, InRoom carries most (pass value) (plain value)) (limit : Nat) (value : Value) :
    InRoom carries most (untilStable? pass size limit value)
      (Predictive.untilStable plain size limit value) := by
  induction limit generalizing value with
  | zero => exact .done _
  | succ limit ih =>
    refine InRoom.bind (passes value) (fun next =>
      if size next = size value then next else Predictive.untilStable plain size limit next) ?_
    split
    · exact .done _
    · exact ih _

end InRoom

namespace Grammar

variable {grammar : Grammar} {room : CallRoom} {most : Nat}

/-! ### Descents -/

section
variable {carries : List Symbol → Bool}
  {ask : Assignment → Symbol → Option (SymbolSet × Assignment)}
  {plain : Assignment → Symbol → SymbolSet × Assignment}
  (asks : ∀ finished symbol, InRoom carries most (ask finished symbol) (plain finished symbol))
include asks

theorem inRoom_scanFirst (finished : Assignment) (symbols : List Symbol) :
    InRoom carries most (scanFirst? ask finished symbols) (scanFirst plain finished symbols) := by
  induction symbols generalizing finished with
  | nil => exact .done _
  | cons symbol rest ih =>
    refine (asks finished symbol).bind (fun leading =>
      if Symbol.epsilon ∈ leading.1 then
        let others := scanFirst plain leading.2 rest
        ((leading.1.without .epsilon).union others.1, others.2)
      else leading) ?_
    dsimp only
    split
    · exact (ih _).map fun others => (SymbolSet.union _ others.1, others.2)
    · exact .done _

theorem inRoom_collectFirst (finished : Assignment) (productions : List Production) :
    InRoom carries most (collectFirst? ask finished productions)
      (collectFirst plain finished productions) := by
  induction productions generalizing finished with
  | nil => exact .done _
  | cons production rest ih =>
    refine (inRoom_scanFirst asks finished production.rhs).bind (fun found =>
      let others := collectFirst plain found.2 rest
      (found.1.union others.1, others.2)) ?_
    exact (ih _).map fun others => (SymbolSet.union _ others.1, others.2)

end

theorem inRoom_firstByDescent (grammar : Grammar) (room : CallRoom) (depth : Nat)
    (opened : List Symbol) (finished : Assignment) (symbol : Symbol) :
    InRoom room.first (opened.length + depth) (grammar.firstInRoom? room depth opened finished symbol)
      (grammar.firstByDescent depth opened finished symbol) := by
  induction depth generalizing opened finished symbol with
  | zero => exact .done _
  | succ depth ih =>
    have inner := ih (symbol :: opened)
    rw [List.length_cons, Nat.add_right_comm] at inner
    unfold firstInRoom? firstByDescent
    by_cases refused : symbol ≠ .epsilon ∧ room.first (symbol :: opened) = false
    · rw [if_pos refused]
      exact .full _ (symbol :: opened) (by simp) refused.2
    · rw [if_neg refused]
      cases symbol.isNonterminal with
      | false => exact .done _
      | true =>
        cases finished.find? symbol with
        | some set => exact .done _
        | none =>
          cases opened.contains symbol with
          | true => exact .done _
          | false =>
            exact (inRoom_collectFirst inner finished (grammar.productionsOf symbol)).map
              fun found => (found.1, found.2.add symbol found.1)

theorem inRoom_visitByDescent {carries : List Symbol → Bool}
    {ask : FollowState → Symbol → Option FollowState} {plain : FollowState → Symbol → FollowState}
    (asks : ∀ state symbol, InRoom carries most (ask state symbol) (plain state symbol))
    (first : Assignment) (state : FollowState) (place : Occurrence) :
    InRoom carries most (visitByDescent? first ask state place)
      (visitByDescent first plain state place) := by
  unfold visitByDescent? visitByDescent
  by_cases last : place.rest.isEmpty = true
  all_goals
    simp only [last, if_true, if_false, Bool.false_eq_true]
    split
    · exact (asks _ _).map fun state => state.addFrom place.symbol place.lhs
    · exact .done _

theorem inRoom_followByDescent (grammar : Grammar) (room : CallRoom)
    (first seeds : Assignment) (depth : Nat) (opened : List Symbol)
    (state : FollowState) (symbol : Symbol) :
    InRoom room.follow (opened.length + depth)
      (grammar.followInRoom? room first seeds depth opened state symbol)
      (grammar.followByDescent first seeds depth state symbol) := by
  induction depth generalizing opened state symbol with
  | zero => exact .done _
  | succ depth ih =>
    have inner := ih (symbol :: opened)
    rw [List.length_cons, Nat.add_right_comm] at inner
    unfold followInRoom? followByDescent
    by_cases refused : room.follow (symbol :: opened) = false
    · rw [if_pos refused]
      exact .full _ (symbol :: opened) (by simp) refused
    · rw [if_neg refused]
      split
      · exact .done _
      · exact .foldlM (inRoom_visitByDescent inner first) _ _

/-! ### All sets -/

theorem inRoom_firstByRecursion (grammar : Grammar) (room : CallRoom) :
    InRoom room.first (grammar.nonTerminals.length + 1) (grammar.firstByRecursion? room)
      grammar.firstByRecursion := by
  refine .foldlM (fun finished symbol => ?_) _ _
  have call := inRoom_firstByDescent grammar room (grammar.nonTerminals.length + 1) [] finished symbol
  rw [List.length_nil, Nat.zero_add] at call
  exact call.map Prod.snd

theorem inRoom_followByRecursion (grammar : Grammar) (room : CallRoom) (first : Assignment)
    (cache : SequenceCache) :
    InRoom room.follow (grammar.nonTerminals.length + 1)
      (grammar.followByRecursion? room first cache) (grammar.followByRecursion first cache) := by
  refine .untilStable _ (fun round => .foldlM (fun state symbol => ?_) _ _) _ _
  have call := inRoom_followByDescent grammar room first round.follow
    (grammar.nonTerminals.length + 1) [] state symbol
  rwa [List.length_nil, Nat.zero_add] at call

/-- Where there is room for the calls, the sets are those that the descents find without one. -/
theorem sets_of_fits (enough : grammar.fits room .recursive = true) :
    grammar.firstByRecursion? room = some grammar.firstByRecursion ∧
      grammar.followByRecursion? room grammar.firstByRecursion {} =
        some (grammar.followByRecursion grammar.firstByRecursion {}) := by
  obtain ⟨state, found⟩ := Option.isSome_iff_exists.mp enough
  obtain ⟨first, one, other⟩ := Option.bind_eq_some_iff.mp found
  have first_eq := grammar.inRoom_firstByRecursion room
  rw [one] at first_eq
  obtain rfl := first_eq.eq_of_some
  have follow_eq := grammar.inRoom_followByRecursion room grammar.firstByRecursion {}
  rw [other] at follow_eq
  obtain rfl := follow_eq.eq_of_some
  exact ⟨one, other⟩

/-- A call for each non-terminal and one more are all that can be open together. -/
theorem fits_of_ample (ample : ∀ calls : List Symbol, calls.length ≤ grammar.nonTerminals.length + 1 →
      room.first calls = true ∧ room.follow calls = true) (strategy : Strategy) :
    grammar.fits room strategy = true := by
  cases strategy with
  | fixedPoint => rfl
  | recursive =>
    have first := (grammar.inRoom_firstByRecursion room).eq_some fun calls few => (ample calls few).1
    have follow := (grammar.inRoom_followByRecursion room grammar.firstByRecursion {}).eq_some
      fun calls few => (ample calls few).2
    simp only [fits, first, Option.bind_some, follow, Option.isSome_some]

/-! ### Chains -/

/-- Non-terminals of each of which the only production is that of the next one. -/
structure Chain (grammar : Grammar) (link : Nat → Symbol) (count : Nat) : Prop where
  kind : ∀ i ≤ count, (link i).isNonterminal = true
  distinct : ∀ i ≤ count, ∀ j ≤ count, link i = link j → i = j
  next : ∀ i < count, ∃ id, grammar.productionsOf (link i) = [⟨id, link i, [link (i + 1)]⟩]

section
variable {link : Nat → Symbol} {count limit : Nat} (chain : grammar.Chain link count)
  (long : limit ≤ count)
  (bounded : ∀ calls : List Symbol, limit < calls.length → room.first calls = false)
include chain long bounded

/-- The call for a link is open while the next one is called for, until there are too many. -/
theorem firstInRoom?_chain (depth : Nat) {i : Nat} {opened : List Symbol} {finished : Assignment}
    (linked : opened.length = i) (few : i ≤ limit) (deep : limit < i + depth)
    (fresh : ∀ j, i ≤ j → j ≤ count → link j ∉ opened ∧ finished.find? (link j) = none) :
    grammar.firstInRoom? room depth opened finished (link i) = none := by
  induction depth generalizing i opened with
  | zero => omega
  | succ depth ih =>
    have kind := chain.kind i (by omega)
    have visible : link i ≠ .epsilon := by
      intro same
      rw [same] at kind
      cases kind
    unfold firstInRoom?
    by_cases refused : room.first (link i :: opened) = false
    · rw [if_pos ⟨visible, refused⟩]
    · have short : i + 1 ≤ limit := Decidable.byContradiction fun far =>
        refused (bounded _ (by simp; omega))
      obtain ⟨closed, unfinished⟩ := fresh i (Nat.le_refl i) (by omega)
      obtain ⟨id, only⟩ := chain.next i (by omega)
      have inner : grammar.firstInRoom? room depth (link i :: opened) finished (link (i + 1)) =
          none := by
        refine ih (by simp [linked]) short (by omega) fun j later inside => ?_
        obtain ⟨outside, unfinished⟩ := fresh j (by omega) inside
        refine ⟨fun member => ?_, unfinished⟩
        rcases List.mem_cons.mp member with same | behind
        · have apart := chain.distinct j inside i (by omega) same
          omega
        · exact outside behind
      rw [if_neg (by simp [refused]), kind, unfinished, only]
      simp [closed, collectFirst?, scanFirst?, inner]

theorem not_fits_of_chain {rest : List Symbol} (start : grammar.nonTerminals = link 0 :: rest)
    (deep : limit ≤ rest.length) : grammar.fits room .recursive = false := by
  have failed : grammar.firstByRecursion? room = none := by
    have begun : grammar.firstInRoom? room (rest.length + 1 + 1) [] .empty (link 0) = none :=
      firstInRoom?_chain chain long bounded _ rfl (Nat.zero_le _) (by omega) fun _ _ _ =>
        ⟨List.not_mem_nil, rfl⟩
    unfold firstByRecursion?
    simp [start, begun]
  simp only [fits, failed, Option.bind_none, Option.isSome_none]

end

end Grammar

end Predictive
