import Predictive.Proofs.Memory
import Predictive.Proofs.Conflicts

/-! Requests that are made on the way to an answer. FOLLOW sets and tables are computed from FIRST of
many sequences, and each of these is a request like one from outside. Plain requests are made of no
others: those for the FIRST sets and those for one sequence. To make the plain requests alone that
serve a request leaves a session as the request itself does, but for the FOLLOW sets. -/

set_option autoImplicit false

namespace Predictive

namespace Session

/-! ### Journals of requests -/

/-- Requests that are made of no others. -/
inductive Request.IsPlain : Request → Prop where
  | firstSets : IsPlain .firstSets
  | sequence (references : List SymbolReference) (memoize : Bool) :
      IsPlain (.sequence references memoize)

/-- The request for a sequence of symbols that is to be remembered. -/
def Request.remembering (symbols : List Symbol) : Request :=
  .sequence (symbols.map .exact) true

/-- The requests of `withFollow`. -/
def followCalls (session : Session) : List Request :=
  let session := session.withFirst
  .firstSets ::
    match session.first, session.follow with
    | some first, none =>
      (session.grammar.followJournal first session.cache session.strategy).map Request.remembering
    | _, _ => []

/-- The requests of `enterProduction`. -/
def productionCalls (session : Session) (production : Production) : List Request :=
  let (found, session) := session.request production.rhs true
  .remembering production.rhs :: if .epsilon ∈ found then session.followCalls else []

/-- The requests of `table`. -/
def tableCalls (session : Session) : List Request :=
  foldJournal enterProduction (fun state production => state.2.productionCalls production)
    ({}, session) session.grammar.productions

/-- What is requested for a symbol if it is a non-terminal. -/
def symbolCalls (session : Session) (reference : SymbolReference) (calls : List Request) :
    List Request :=
  match session.grammar.resolve reference with
  | .error _ => []
  | .ok symbol => if symbol.isNonterminal then calls else []

/-- The plain requests that are made to serve a request, this one included. -/
def calls (session : Session) : Request → List Request
  | .firstSets => [.firstSets]
  | .followSets => session.followCalls
  | .firstOf reference => session.symbolCalls reference [.firstSets]
  | .followOf reference => session.symbolCalls reference session.followCalls
  | .sequence references memoize => [.sequence references memoize]
  | .table => session.tableCalls

/-- The plain requests that are made to serve some requests one after another. -/
def callsOf (session : Session) (requests : List Request) : List Request :=
  foldJournal serve calls session requests

/-- A session without what it knows of FOLLOW. -/
def withoutFollow (session : Session) : Session :=
  { session with follow := none }

variable {session : Session} {symbols : List Symbol}

/-! ### Sequences of symbols -/

/-- A request that comes upon no foreign non-terminal is answered. -/
theorem sequence_exact {references : List SymbolReference}
    (resolved : references.mapM session.grammar.resolve = .ok symbols)
    (familiar : (session.prepare symbols).stranger? symbols = none) (memoize : Bool) :
    session.sequence references memoize =
      (.ok (session.request symbols memoize).1, (session.request symbols memoize).2) := by
  unfold Session.sequence Session.request
  rw [resolved]
  dsimp only
  split
  · rfl
  · rw [familiar]

theorem grammar_prepare (session : Session) (symbols : List Symbol) :
    (session.prepare symbols).grammar = session.grammar := by
  unfold Session.prepare
  dsimp only
  split
  · exact grammar_withFirst _
  · rfl

theorem serve_remembering (known : ∀ symbol ∈ symbols, symbol.isNonterminal = true →
      symbol ∈ session.grammar.nonTerminals) :
    session.serve (.remembering symbols) = (session.request symbols true).2 := by
  have familiar : (session.prepare symbols).stranger? symbols = none := by
    apply stranger?_eq_none
    rw [grammar_prepare]
    exact known
  exact congrArg Prod.snd
    (sequence_exact (session.grammar.mapM_resolve_exact symbols) familiar true)

theorem withFirst_eq_self {first : Assignment} (computed : session.first = some first) :
    session.withFirst = session := by
  unfold Session.withFirst
  rw [computed]

/-- With FIRST sets at hand, a session answers as its memory does. -/
theorem request_eq {first : Assignment} (computed : session.first = some first) :
    (session.request symbols true).2 = { session with cache := session.cache.ask first symbols } := by
  have prepared : session.prepare symbols = { session with cache := session.cache.miss } := by
    have missed : { session with cache := session.cache.miss }.withFirst =
        { session with cache := session.cache.miss } := withFirst_eq_self computed
    unfold Session.prepare
    dsimp only
    rw [missed]
    exact ite_self _
  unfold Session.request SequenceCache.ask SequenceCache.request
  cases session.cache.find? symbols with
  | some set => rfl
  | none => simp [prepared, Session.answer, firstAssignment, computed]

/-! ### Sessions without FOLLOW sets -/

theorem withFirst_withoutFollow (session : Session) :
    session.withoutFollow.withFirst = session.withFirst.withoutFollow := by
  unfold Session.withFirst withoutFollow
  dsimp only
  split <;> rfl

theorem prepare_withoutFollow (session : Session) (symbols : List Symbol) :
    session.withoutFollow.prepare symbols = (session.prepare symbols).withoutFollow := by
  unfold Session.prepare
  dsimp only
  split
  · exact withFirst_withoutFollow { session with cache := session.cache.miss }
  · rfl

theorem sequence_withoutFollow (session : Session) (references : List SymbolReference)
    (memoize : Bool) :
    (session.withoutFollow.sequence references memoize).2 =
      (session.sequence references memoize).2.withoutFollow := by
  have strangers (symbols : List Symbol) : (session.prepare symbols).withoutFollow.stranger? symbols =
      (session.prepare symbols).stranger? symbols := by
    apply stranger?_congr <;> rfl
  unfold Session.sequence
  rw [show session.withoutFollow.grammar = session.grammar from rfl]
  split
  · rfl
  · rename_i symbols _
    rw [show session.withoutFollow.cache = session.cache from rfl]
    split
    · rfl
    · dsimp only
      rw [prepare_withoutFollow, strangers]
      split
      · rfl
      · cases memoize <;> rfl

theorem serve_withoutFollow_remembering (known : ∀ symbol ∈ symbols, symbol.isNonterminal = true →
      symbol ∈ session.grammar.nonTerminals) :
    session.withoutFollow.serve (.remembering symbols) =
      (session.request symbols true).2.withoutFollow := by
  rw [← serve_remembering known]
  exact sequence_withoutFollow session _ true

/-! ### What the journals say -/

/-- What is asked for behind the places of non-terminals is remembered. -/
theorem foldl_remembering {first : Assignment} (computed : session.first = some first)
    {journal : List (List Symbol)} (rests : ∀ symbols ∈ journal, session.grammar.IsRest symbols) :
    (journal.map Request.remembering).foldl serve session =
      { session with cache := journal.foldl (SequenceCache.ask first) session.cache } := by
  induction journal generalizing session with
  | nil => rfl
  | cons symbols rest ih =>
    obtain ⟨⟨place, member, rfl⟩, others⟩ := List.forall_mem_cons.mp rests
    have known : ∀ symbol ∈ place.rest, symbol.isNonterminal = true →
        symbol ∈ session.grammar.nonTerminals :=
      fun _ => Grammar.mem_nonTerminals_of_rest member
    rw [List.map_cons, List.foldl_cons, serve_remembering known, request_eq computed]
    exact ih computed others

theorem withFirst_retraces (session : Session) :
    Retraces serve Request.IsPlain session.withoutFollow [.firstSets]
      session.withFirst.withoutFollow :=
  .single .firstSets (withFirst_withoutFollow session).symm

theorem withFollow_retraces (session : Session) :
    Retraces serve Request.IsPlain session.withoutFollow session.followCalls
      session.withFollow.withoutFollow := by
  refine .cons .firstSets (withFirst_withoutFollow session).symm ?_
  unfold Session.withFollow
  dsimp only
  cases computed : session.withFirst.first with
  | none => exact .nil _
  | some first =>
    cases known : session.withFirst.follow with
    | some follow => exact .nil _
    | none =>
      dsimp only
      generalize session.withFirst = session at *
      obtain ⟨leads, rests⟩ :=
        session.grammar.followSets_retraces first session.cache session.strategy
      constructor
      · have asked := foldl_remembering (show session.withoutFollow.first = some first from computed)
          rests
        rw [asked]
        simp only [withoutFollow, leads, computed]
      · intro request member
        obtain ⟨symbols, _, rfl⟩ := List.mem_map.mp member
        exact .sequence _ true

theorem grammar_request (session : Session) (symbols : List Symbol) (memoize : Bool) :
    (session.request symbols memoize).2.grammar = session.grammar := by
  unfold Session.request
  split
  · rfl
  · cases memoize <;> exact grammar_prepare session symbols

theorem grammar_withFollow (session : Session) : session.withFollow.grammar = session.grammar := by
  unfold Session.withFollow
  dsimp only
  split <;> exact grammar_withFirst session

theorem grammar_enterProduction (state : Filling × Session) (production : Production) :
    (enterProduction state production).2.grammar = state.2.grammar := by
  have requested := grammar_request state.2 production.rhs true
  unfold Session.enterProduction
  dsimp only
  split
  · exact (grammar_withFollow _).trans requested
  · exact requested

theorem enterProduction_retraces {production : Production}
    (declared : production ∈ session.grammar.productions) (filling : Filling) :
    Retraces serve Request.IsPlain session.withoutFollow (session.productionCalls production)
      (enterProduction (filling, session) production).2.withoutFollow := by
  have known : ∀ symbol ∈ production.rhs, symbol.isNonterminal = true →
      symbol ∈ session.grammar.nonTerminals :=
    fun _ => Grammar.mem_nonTerminals_of_rhs declared
  unfold productionCalls Session.enterProduction
  dsimp only
  refine .cons (.sequence _ true) (serve_withoutFollow_remembering known).symm ?_
  by_cases empty : .epsilon ∈ (session.request production.rhs true).1
  · simp only [empty, if_true]
    exact withFollow_retraces _
  · simp only [empty, if_false]
    exact .nil _

theorem table_retraces (session : Session) :
    Retraces serve Request.IsPlain session.withoutFollow session.tableCalls
      session.table.2.withoutFollow := by
  unfold tableCalls Session.table
  refine retraces_foldl (fun state : Filling × Session => state.2.withoutFollow)
    (fun state => state.2.grammar = session.grammar) ({}, session) ?_ ?_ rfl
  · intro state same production _
    exact (grammar_enterProduction state production).trans same
  · intro state same production declared
    rw [← same] at declared
    exact enterProduction_retraces declared state.1

theorem firstOf_retraces (session : Session) (reference : SymbolReference) :
    Retraces serve Request.IsPlain session.withoutFollow (session.symbolCalls reference [.firstSets])
      (session.firstOf reference).2.withoutFollow := by
  unfold symbolCalls Session.firstOf
  cases session.grammar.resolve reference with
  | error cause => exact .nil _
  | ok symbol =>
    cases kind : symbol.isNonterminal with
    | false =>
      simp only [kind, Bool.false_eq_true, if_false]
      exact .nil _
    | true =>
      simp only [kind, if_true]
      split <;> exact withFirst_retraces session

theorem followOf_retraces (session : Session) (reference : SymbolReference) :
    Retraces serve Request.IsPlain session.withoutFollow
      (session.symbolCalls reference session.followCalls)
      (session.followOf reference).2.withoutFollow := by
  unfold symbolCalls Session.followOf
  cases session.grammar.resolve reference with
  | error cause => exact .nil _
  | ok symbol =>
    cases kind : symbol.isNonterminal with
    | false =>
      simp only [kind, Bool.false_eq_true, if_false]
      exact .nil _
    | true =>
      simp only [kind, if_true]
      split <;> exact withFollow_retraces session

/-- A request does what its plain requests do. -/
theorem serve_retraces (session : Session) (request : Request) :
    Retraces serve Request.IsPlain session.withoutFollow (session.calls request)
      (session.serve request).withoutFollow := by
  cases request with
  | firstSets => exact withFirst_retraces session
  | followSets => exact withFollow_retraces session
  | firstOf reference => exact firstOf_retraces session reference
  | followOf reference => exact followOf_retraces session reference
  | sequence references memoize =>
    exact .single (.sequence _ _) (sequence_withoutFollow session references memoize).symm
  | table => exact table_retraces session

/-- Requests do what the plain requests do that are made to serve them. -/
theorem after_retraces (session : Session) (requests : List Request) :
    Retraces serve Request.IsPlain session.withoutFollow (session.callsOf requests)
      (session.after requests).withoutFollow :=
  retraces_foldl withoutFollow (fun _ => True) session (fun _ _ _ _ => trivial)
    (fun session _ request _ => serve_retraces session request) trivial

/-- The second pass over the places finds nothing new. -/
example : (new pairSample .fixedPoint).callsOf [.followSets] =
    [.firstSets, .remembering [.nonterminal "B"], .remembering [], .remembering [.nonterminal "B"],
      .remembering []] := by decide

end Session

end Predictive
