import Predictive.Proofs.FollowSets
import Predictive.Table.Build

/-! Sessions after any requests. Whatever was asked before, the sets that a session keeps are those
of its grammar and strategy, and the sequences that it remembers have the sets that would be
computed. So every answer is exact: FIRST and FOLLOW say what can be derived. -/

set_option autoImplicit false

namespace Predictive

/-! ### FOLLOW does not depend on what is remembered -/

theorem untilStable_related {State : Type} {pass : State → State} {size : State → Nat}
    (related : State → State → Prop)
    (kept : ∀ left right, related left right → related (pass left) (pass right))
    (sizes : ∀ left right, related left right → size left = size right) (limit : Nat)
    {left right : State} (initial : related left right) :
    related (untilStable pass size limit left) (untilStable pass size limit right) := by
  induction limit generalizing left right with
  | zero => exact initial
  | succ limit ih =>
    have next := kept left right initial
    unfold untilStable
    dsimp only
    rw [sizes _ _ next, sizes _ _ initial]
    split
    · exact next
    · exact ih next

namespace FollowState

/-- The same sets, whatever was remembered on the way to them. -/
def Agree (first : Assignment) (left right : FollowState) : Prop :=
  left.follow = right.follow ∧ left.cache.Faithful first ∧ right.cache.Faithful first

variable {first : Assignment} {left right : FollowState}

theorem Agree.size (agree : Agree first left right) : left.size = right.size :=
  congrArg Assignment.size agree.1

theorem Agree.add (agree : Agree first left right) (symbol : Symbol) (set : SymbolSet) :
    Agree first (left.add symbol set) (right.add symbol set) :=
  ⟨congrArg (fun follow => follow.add symbol set) agree.1, agree.2⟩

theorem Agree.addFrom (agree : Agree first left right) (symbol source : Symbol) :
    Agree first (left.addFrom symbol source) (right.addFrom symbol source) := by
  unfold FollowState.addFrom
  rw [agree.1]
  exact agree.add symbol _

theorem Agree.visit (agree : Agree first left right) (place : Occurrence) :
    Agree first (visit first left place) (visit first right place) := by
  obtain ⟨keptLeft, equalLeft⟩ := visit_eq agree.2.1 place
  obtain ⟨keptRight, equalRight⟩ := visit_eq agree.2.2 place
  exact ⟨by rw [equalLeft, equalRight, agree.1], keptLeft, keptRight⟩

theorem Agree.visitByDescent (agree : Agree first left right)
    {ask : FollowState → Symbol → FollowState}
    (asked : ∀ left right, Agree first left right → ∀ symbol,
      Agree first (ask left symbol) (ask right symbol)) (place : Occurrence) :
    Agree first (Grammar.visitByDescent first ask left place)
      (Grammar.visitByDescent first ask right place) := by
  obtain ⟨sameLeft, keptLeft⟩ := agree.2.1.request place.rest
  obtain ⟨sameRight, keptRight⟩ := agree.2.2.request place.rest
  unfold Grammar.visitByDescent
  by_cases ending : place.rest.isEmpty = true
  · simp only [ending, if_true]
    split
    · exact (asked _ _ agree place.lhs).addFrom _ _
    · exact agree
  · simp only [ending, Bool.false_eq_true, if_false]
    rw [sameLeft, sameRight]
    have remembered : Agree first
        { left with cache := (left.cache.request first place.rest).2 }
        { right with cache := (right.cache.request first place.rest).2 } :=
      ⟨agree.1, keptLeft, keptRight⟩
    have added := remembered.add place.symbol ((firstOfSequence first place.rest).without .epsilon)
    split
    · exact (asked _ _ added place.lhs).addFrom _ _
    · exact added

end FollowState

namespace Grammar

variable (grammar : Grammar) {first : Assignment}

theorem followByDescent_agree (seeds : Assignment) (depth : Nat) {left right : FollowState}
    (agree : FollowState.Agree first left right) (symbol : Symbol) :
    FollowState.Agree first (grammar.followByDescent first seeds depth left symbol)
      (grammar.followByDescent first seeds depth right symbol) := by
  induction depth generalizing left right symbol with
  | zero => exact agree
  | succ depth ih =>
    -- whether a set was entered before is read off the sets, on which both states agree
    unfold followByDescent
    rw [agree.1]
    split
    · exact agree
    · apply List.foldl_rel
      · split
        · exact (agree.add _ _).add _ _
        · exact agree.add _ _
      · intro place _ left right agree
        exact agree.visitByDescent (fun _ _ agree symbol => ih agree symbol) place

theorem followDescents_agree {left right : FollowState}
    (agree : FollowState.Agree first left right) :
    FollowState.Agree first (grammar.followDescents first left)
      (grammar.followDescents first right) := by
  unfold followDescents
  dsimp only
  rw [agree.1]
  exact List.foldl_rel (r := FollowState.Agree first) ⟨rfl, agree.2⟩
    fun symbol _ _ _ agree => grammar.followByDescent_agree _ _ agree symbol

theorem followSets_agree {left right : SequenceCache} (leftFaithful : left.Faithful first)
    (rightFaithful : right.Faithful first) (strategy : Strategy) :
    FollowState.Agree first (grammar.followSets first left strategy)
      (grammar.followSets first right strategy) := by
  cases strategy with
  | fixedPoint =>
    refine untilStable_related (FollowState.Agree first) ?_ (fun _ _ agree => agree.size) _
      ⟨rfl, leftFaithful, rightFaithful⟩
    intro left right agree
    exact List.foldl_rel agree fun place _ _ _ agree => agree.visit place
  | recursive =>
    exact untilStable_related (FollowState.Agree first)
      (fun _ _ agree => grammar.followDescents_agree agree) (fun _ _ agree => agree.size) _
      ⟨rfl, leftFaithful, rightFaithful⟩

/-- The FOLLOW sets of a grammar under a strategy. -/
def followAssignment (strategy : Strategy) : Assignment :=
  (grammar.followSets (grammar.firstSets strategy) {} strategy).follow

theorem followSets_eq {strategy : Strategy} {cache : SequenceCache}
    (faithful : cache.Faithful (grammar.firstSets strategy)) :
    (grammar.followSets (grammar.firstSets strategy) cache strategy).follow =
        grammar.followAssignment strategy ∧
      (grammar.followSets (grammar.firstSets strategy) cache strategy).cache.Faithful
        (grammar.firstSets strategy) := by
  have agree := grammar.followSets_agree faithful (.empty 0 0) strategy
  exact ⟨agree.1, agree.2.1⟩

end Grammar

/-! ### Sequences that need no FIRST sets -/

theorem firstOfSequence_eq_of_needsFirst {symbols : List Symbol}
    (leading : Session.needsFirst symbols = false) (first other : Assignment) :
    firstOfSequence first symbols = firstOfSequence other symbols := by
  induction symbols with
  | nil => rfl
  | cons symbol rest ih =>
    -- empty strings are passed over, and what comes first behind them is a leaf
    by_cases empty : symbol = .epsilon
    · subst empty
      have later : Session.needsFirst rest = false := by
        simpa [Session.needsFirst] using leading
      rw [firstOfSequence_cons, firstOfSequence_cons, ih later]
      rfl
    · have kind : symbol.isNonterminal = false := by
        simpa [Session.needsFirst, empty] using leading
      have visible : .epsilon ∉ SymbolSet.singleton symbol := by
        simpa using fun same => empty same.symm
      rw [firstOfSequence_cons, firstOfSequence_cons]
      simp [Assignment.firstOf, kind, visible]

namespace Session

/-! ### What every session keeps -/

/-- What a session has computed and remembered is what its grammar and strategy say. -/
structure Coherent (session : Session) : Prop where
  first : ∀ first, session.first = some first → first = session.grammar.firstSets session.strategy
  follow : ∀ follow, session.follow = some follow →
    follow = session.grammar.followAssignment session.strategy
  cache : session.cache.Faithful (session.grammar.firstSets session.strategy)

/-- Another state of a session about the same grammar, under the same strategy. -/
structure Continues (session next : Session) : Prop where
  grammar : next.grammar = session.grammar
  strategy : next.strategy = session.strategy
  coherent : next.Coherent

variable {session : Session}

theorem Continues.refl (coherent : session.Coherent) : session.Continues session :=
  ⟨rfl, rfl, coherent⟩

theorem Continues.trans {next last : Session} (first : session.Continues next)
    (second : next.Continues last) : session.Continues last :=
  ⟨second.grammar.trans first.grammar, second.strategy.trans first.strategy, second.coherent⟩

theorem coherent_new (grammar : Grammar) (strategy : Strategy) : (new grammar strategy).Coherent :=
  ⟨by simp [new], by simp [new], .empty 0 0⟩

theorem Coherent.withCache (coherent : session.Coherent) (cache : SequenceCache)
    (faithful : cache.Faithful (session.grammar.firstSets session.strategy)) :
    session.Continues { session with cache := cache } :=
  ⟨rfl, rfl, coherent.first, coherent.follow, faithful⟩

theorem Coherent.withFirst (coherent : session.Coherent) :
    session.Continues session.withFirst ∧
      session.withFirst.firstAssignment = session.grammar.firstSets session.strategy := by
  unfold Session.withFirst
  cases known : session.first with
  | some first =>
    refine ⟨.refl coherent, ?_⟩
    simpa [firstAssignment, known] using coherent.first first known
  | none =>
    refine ⟨⟨rfl, rfl, ?_, coherent.follow, .empty _ _⟩, rfl⟩
    intro first computed
    exact (Option.some.inj computed).symm

theorem first_withFirst (session : Session) : ∃ first, session.withFirst.first = some first := by
  unfold Session.withFirst
  cases known : session.first with
  | some first => exact ⟨first, known⟩
  | none => exact ⟨_, rfl⟩

theorem Coherent.withFollow (coherent : session.Coherent) :
    session.Continues session.withFollow ∧
      session.withFollow.followAssignment =
        session.grammar.followAssignment session.strategy := by
  obtain ⟨continues, _⟩ := coherent.withFirst
  obtain ⟨first, computed⟩ := first_withFirst session
  -- FOLLOW is computed from the FIRST sets that the session keeps, and with what it remembers
  have same := continues.coherent.first first computed
  rw [continues.grammar, continues.strategy] at same
  have faithful := continues.coherent.cache
  rw [continues.grammar, continues.strategy] at faithful
  unfold Session.withFollow
  dsimp only
  cases known : session.withFirst.follow with
  | some follow =>
    simp only [computed]
    refine ⟨continues, ?_⟩
    have equal := continues.coherent.follow follow known
    rw [continues.grammar, continues.strategy] at equal
    simpa [followAssignment, known] using equal
  | none =>
    simp only [computed, continues.grammar, continues.strategy]
    obtain ⟨equal, kept⟩ := session.grammar.followSets_eq faithful
    rw [← same] at equal kept
    refine ⟨⟨rfl, rfl, ?_, ?_, ?_⟩, equal⟩
    · intro other found
      rw [← Option.some.inj found]
      exact same
    · intro follow found
      rw [← Option.some.inj found]
      exact equal
    · change SequenceCache.Faithful _ (session.grammar.firstSets session.strategy)
      rw [← same]
      exact kept

theorem Coherent.prepare (coherent : session.Coherent) (symbols : List Symbol) :
    session.Continues (session.prepare symbols) ∧
      firstOfSequence (session.prepare symbols).firstAssignment symbols =
        firstOfSequence (session.grammar.firstSets session.strategy) symbols := by
  have missed := coherent.withCache session.cache.miss coherent.cache
  unfold Session.prepare
  dsimp only
  split
  · obtain ⟨continues, first⟩ := missed.coherent.withFirst
    exact ⟨missed.trans continues, by rw [first]⟩
  · rename_i leading
    exact ⟨missed, firstOfSequence_eq_of_needsFirst (by simpa using leading) _ _⟩

theorem Coherent.answer {symbols : List Symbol} (coherent : session.Coherent)
    (computed : firstOfSequence session.firstAssignment symbols =
      firstOfSequence (session.grammar.firstSets session.strategy) symbols) (memoize : Bool) :
    session.Continues (session.answer symbols memoize).2 := by
  cases memoize with
  | false => exact .refl coherent
  | true => exact coherent.withCache _ (coherent.cache.store computed)

/-- A request is answered with FIRST of the sequence, from memory or not. -/
theorem Coherent.request (coherent : session.Coherent) (symbols : List Symbol) (memoize : Bool) :
    session.Continues (session.request symbols memoize).2 ∧
      (session.request symbols memoize).1 =
        firstOfSequence (session.grammar.firstSets session.strategy) symbols := by
  unfold Session.request
  split
  · rename_i set found
    exact ⟨coherent.withCache session.cache.hit coherent.cache,
      coherent.cache.find? found⟩
  · obtain ⟨prepared, computed⟩ := coherent.prepare symbols
    rw [← prepared.grammar, ← prepared.strategy] at computed
    refine ⟨prepared.trans (prepared.coherent.answer computed memoize), ?_⟩
    rw [← prepared.grammar, ← prepared.strategy]
    exact computed

theorem Coherent.enterProduction (coherent : session.Coherent) (filling : Filling)
    (production : Production) :
    session.Continues (enterProduction (filling, session) production).2 := by
  obtain ⟨requested, _⟩ := coherent.request production.rhs true
  unfold Session.enterProduction
  dsimp only
  split
  · exact requested.trans requested.coherent.withFollow.1
  · exact requested

theorem Coherent.enterProductions (coherent : session.Coherent) (filling : Filling)
    (productions : List Production) :
    session.Continues (productions.foldl Session.enterProduction (filling, session)).2 := by
  refine List.foldlRecOn (motive := fun state : Filling × Session => session.Continues state.2) _ _
    (Continues.refl coherent) ?_
  rintro ⟨filling, next⟩ continues production _
  exact continues.trans (continues.coherent.enterProduction filling production)

theorem Coherent.table (coherent : session.Coherent) : session.Continues session.table.2 :=
  coherent.enterProductions {} session.grammar.productions

/-! ### Histories -/

/-- What a session can be asked. -/
inductive Request where
  | firstSets
  | followSets
  | firstOf (reference : SymbolReference)
  | followOf (reference : SymbolReference)
  | sequence (references : List SymbolReference) (memoize : Bool)
  | table
  deriving DecidableEq, Repr

/-- The session after a request, answered or refused. -/
def serve (session : Session) : Request → Session
  | .firstSets => session.firstSets.2
  | .followSets => session.followSets.2
  | .firstOf reference => (session.firstOf reference).2
  | .followOf reference => (session.followOf reference).2
  | .sequence references memoize => (session.sequence references memoize).2
  | .table => session.table.2

def after (session : Session) (requests : List Request) : Session :=
  requests.foldl serve session

theorem firstOf_leaves (session : Session) (reference : SymbolReference) :
    (session.firstOf reference).2 = session ∨
      (session.firstOf reference).2 = session.withFirst := by
  unfold Session.firstOf
  split
  · exact .inl rfl
  · split
    · dsimp only
      split <;> exact .inr rfl
    · exact .inl rfl

theorem followOf_leaves (session : Session) (reference : SymbolReference) :
    (session.followOf reference).2 = session ∨
      (session.followOf reference).2 = session.withFollow := by
  unfold Session.followOf
  split
  · exact .inl rfl
  · split
    · dsimp only
      split <;> exact .inr rfl
    · exact .inl rfl

/-- All that a request can do to a session. A refused one may still have computed sets. -/
theorem serve_leaves (session : Session) (request : Request) :
    session.serve request = session ∨ session.serve request = session.withFirst ∨
      session.serve request = session.withFollow ∨
      (∃ references memoize, session.serve request = (session.sequence references memoize).2) ∨
      session.serve request = session.table.2 := by
  cases request with
  | firstSets => exact .inr (.inl rfl)
  | followSets => exact .inr (.inr (.inl rfl))
  | firstOf reference => exact (session.firstOf_leaves reference).imp id .inl
  | followOf reference => exact (session.followOf_leaves reference).imp id fun same => .inr (.inl same)
  | sequence references memoize => exact .inr (.inr (.inr (.inl ⟨references, memoize, rfl⟩)))
  | table => exact .inr (.inr (.inr (.inr rfl)))

theorem Coherent.sequence (coherent : session.Coherent) (references : List SymbolReference)
    (memoize : Bool) : session.Continues (session.sequence references memoize).2 := by
  unfold Session.sequence
  split
  · exact .refl coherent
  · rename_i symbols _
    split
    · exact coherent.withCache session.cache.hit coherent.cache
    · obtain ⟨prepared, computed⟩ := coherent.prepare symbols
      rw [← prepared.grammar, ← prepared.strategy] at computed
      dsimp only
      split
      · exact prepared
      · exact prepared.trans (prepared.coherent.answer computed memoize)

theorem Coherent.serve (coherent : session.Coherent) (request : Request) :
    session.Continues (session.serve request) := by
  obtain same | same | same | ⟨references, memoize, same⟩ | same := session.serve_leaves request <;>
    rw [same]
  · exact .refl coherent
  · exact coherent.withFirst.1
  · exact coherent.withFollow.1
  · exact coherent.sequence references memoize
  · exact coherent.table

theorem Coherent.after (coherent : session.Coherent) (requests : List Request) :
    session.Continues (session.after requests) := by
  induction requests generalizing session with
  | nil => exact .refl coherent
  | cons request rest ih =>
    have served := coherent.serve request
    exact served.trans (ih served.coherent)

end Session

end Predictive
