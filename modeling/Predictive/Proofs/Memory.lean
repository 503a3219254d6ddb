import Predictive.Proofs.ExactSets
import Predictive.Proofs.Predictions
import Predictive.Proofs.FollowJournals

/-! What a session remembers does not show. A session computes its sets when they are first needed,
forgets the sequences that were asked before, and answers some requests from memory and refuses
others after it has changed. None of this can be told from its answers: each of them is the one
that a new session gives to that request alone. Only the counts of requests differ. -/

set_option autoImplicit false

namespace Predictive

/-! ### Which sequences are remembered -/

namespace SequenceCache

/-- All remembered sequences are of some kind. -/
def Only (allowed : List Symbol → Prop) (cache : SequenceCache) : Prop :=
  ∀ entry ∈ cache.stored, allowed entry.1

variable {allowed : List Symbol → Prop} {cache : SequenceCache} {symbols : List Symbol}

theorem Only.forget : cache.forget.Only allowed := by
  simp [Only, SequenceCache.forget]

theorem Only.store (only : cache.Only allowed) (inside : allowed symbols) (set : SymbolSet) :
    (cache.store symbols set).Only allowed :=
  List.forall_mem_cons.mpr ⟨inside, only⟩

theorem Only.request (only : cache.Only allowed) (inside : allowed symbols) (first : Assignment) :
    (cache.request first symbols).2.Only allowed := by
  unfold SequenceCache.request
  split
  · exact only
  · have missed : cache.miss.Only allowed := only
    exact missed.store inside _

theorem Only.allowed_of_find? (only : cache.Only allowed) {set : SymbolSet}
    (found : cache.find? symbols = some set) : allowed symbols := by
  obtain ⟨entry, located, _⟩ := Option.map_eq_some_iff.mp found
  have same : entry.1 = symbols := by simpa using List.find?_some located
  exact same ▸ only entry (List.mem_of_find?_eq_some located)

end SequenceCache

namespace Grammar

variable {grammar : Grammar} {first : Assignment} {allowed : List Symbol → Prop}

/-- The FOLLOW sets are computed from FIRST of what stands behind the places of non-terminals. -/
theorem followSets_only (inside : ∀ place ∈ grammar.occurrences, allowed place.rest)
    {cache : SequenceCache} (only : cache.Only allowed) (strategy : Strategy) :
    (grammar.followSets first cache strategy).cache.Only allowed := by
  obtain ⟨leads, rests⟩ := grammar.followSets_retraces first cache strategy
  rw [leads]
  refine List.foldlRecOn (motive := fun cache : SequenceCache => cache.Only allowed) _ _ only ?_
  intro cache only symbols asked
  obtain ⟨place, member, rfl⟩ := rests symbols asked
  exact only.request (inside place member) first

end Grammar

/-! ### Foreign non-terminals -/

namespace Session

variable {session : Session} {symbols : List Symbol}

theorem stranger?_congr {left right : Session} (grammar : left.grammar = right.grammar)
    (first : left.firstAssignment = right.firstAssignment) (symbols : List Symbol) :
    left.stranger? symbols = right.stranger? symbols := by
  induction symbols with
  | nil => rfl
  | cons symbol rest ih => rw [stranger?, stranger?, grammar, first, ih]

/-- A sequence that needs no FIRST sets has no foreign non-terminal on the way. -/
theorem stranger?_eq_none_of_needsFirst (leading : needsFirst symbols = false) :
    session.stranger? symbols = none := by
  induction symbols with
  | nil => rfl
  | cons symbol rest ih =>
    unfold stranger?
    by_cases empty : symbol = .epsilon
    · subst empty
      have later : needsFirst rest = false := by simpa [needsFirst] using leading
      rw [ih later, ite_self]
      rfl
    · have kind : symbol.isNonterminal = false := by simpa [needsFirst, empty] using leading
      have visible : .epsilon ∉ SymbolSet.singleton symbol := by
        simpa using fun same => empty same.symm
      simp [Assignment.firstOf, kind, visible]

end Session

/-- FIRST of a sequence depends on no foreign non-terminal. -/
def Grammar.Familiar (grammar : Grammar) (strategy : Strategy) (symbols : List Symbol) : Prop :=
  (Session.new grammar strategy).withFirst.stranger? symbols = none

namespace Grammar

variable {grammar : Grammar} {strategy : Strategy}

theorem familiar_of_known {symbols : List Symbol}
    (known : ∀ symbol ∈ symbols, symbol.isNonterminal = true → symbol ∈ grammar.nonTerminals) :
    grammar.Familiar strategy symbols :=
  Session.stranger?_eq_none known

theorem familiar_rhs {production : Production} (declared : production ∈ grammar.productions) :
    grammar.Familiar strategy production.rhs :=
  familiar_of_known fun _ member => mem_nonTerminals_of_rhs declared member

theorem familiar_rest {place : Occurrence} (member : place ∈ grammar.occurrences) :
    grammar.Familiar strategy place.rest :=
  familiar_of_known fun _ => mem_nonTerminals_of_rest member

end Grammar

namespace Session

variable {session : Session} {symbols : List Symbol}

/-! ### What a session remembers -/

section
variable {allowed : List Symbol → Prop}

theorem withFirst_only (only : session.cache.Only allowed) :
    session.withFirst.cache.Only allowed := by
  unfold Session.withFirst
  split
  · exact only
  · exact .forget

theorem grammar_withFirst (session : Session) : session.withFirst.grammar = session.grammar := by
  unfold Session.withFirst
  split <;> rfl

theorem withFollow_only (places : ∀ place ∈ session.grammar.occurrences, allowed place.rest)
    (only : session.cache.Only allowed) : session.withFollow.cache.Only allowed := by
  have first := withFirst_only only
  rw [← session.grammar_withFirst] at places
  unfold Session.withFollow
  dsimp only
  split
  · exact Grammar.followSets_only places first _
  · exact first

theorem prepare_only (only : session.cache.Only allowed) (symbols : List Symbol) :
    (session.prepare symbols).cache.Only allowed := by
  have missed : ({ session with cache := session.cache.miss } : Session).cache.Only allowed := only
  unfold Session.prepare
  dsimp only
  split
  · exact withFirst_only missed
  · exact missed

theorem answer_only (only : session.cache.Only allowed) (inside : allowed symbols)
    (memoize : Bool) : (session.answer symbols memoize).2.cache.Only allowed := by
  cases memoize with
  | false => exact only
  | true => exact only.store inside _

theorem request_only (only : session.cache.Only allowed) (inside : allowed symbols)
    (memoize : Bool) : (session.request symbols memoize).2.cache.Only allowed := by
  unfold Session.request
  split
  · exact only
  · exact answer_only (prepare_only only symbols) inside memoize

end

/-- A session that has computed what its grammar and strategy say, and remembers no sequence that
it would refuse. -/
structure Reliable (session : Session) : Prop where
  coherent : session.Coherent
  familiar : session.cache.Only (session.grammar.Familiar session.strategy)

theorem reliable_new (grammar : Grammar) (strategy : Strategy) :
    (new grammar strategy).Reliable :=
  ⟨coherent_new grammar strategy, by simp [SequenceCache.Only, new]⟩

theorem Continues.reliable {next : Session} (continues : session.Continues next)
    (familiar : next.cache.Only (session.grammar.Familiar session.strategy)) : next.Reliable := by
  refine ⟨continues.coherent, ?_⟩
  rw [continues.grammar, continues.strategy]
  exact familiar

theorem Reliable.withFirst (reliable : session.Reliable) : session.withFirst.Reliable :=
  reliable.coherent.withFirst.1.reliable (withFirst_only reliable.familiar)

theorem Reliable.withFollow (reliable : session.Reliable) : session.withFollow.Reliable :=
  reliable.coherent.withFollow.1.reliable
    (withFollow_only (fun _ member => Grammar.familiar_rest member) reliable.familiar)

theorem Reliable.enterProduction (reliable : session.Reliable) (filling : Filling)
    {production : Production} (declared : production ∈ session.grammar.productions) :
    (enterProduction (filling, session) production).2.Reliable := by
  have requested : (session.request production.rhs true).2.Reliable :=
    (reliable.coherent.request production.rhs true).1.reliable
      (request_only reliable.familiar (Grammar.familiar_rhs declared) true)
  unfold Session.enterProduction
  dsimp only
  split
  · exact requested.withFollow
  · exact requested

theorem Reliable.table (reliable : session.Reliable) : session.table.2.Reliable := by
  have kept : session.table.2.Reliable ∧ session.table.2.grammar = session.grammar := by
    unfold Session.table
    refine List.foldlRecOn (motive := fun state : Filling × Session =>
      state.2.Reliable ∧ state.2.grammar = session.grammar) _ _ ⟨reliable, rfl⟩ ?_
    rintro ⟨filling, next⟩ ⟨reliable, same⟩ production declared
    exact ⟨reliable.enterProduction filling (same ▸ declared),
      (reliable.coherent.enterProduction filling production).grammar.trans same⟩
  exact kept.1

/-- A session that was prepared for a sequence has the FIRST sets that the sequence needs. -/
theorem Coherent.prepared (coherent : session.Coherent) (symbols : List Symbol) :
    (session.prepare symbols).stranger? symbols =
      (new session.grammar session.strategy).withFirst.stranger? symbols := by
  by_cases leading : needsFirst symbols = true
  · have missed := coherent.withCache session.cache.miss coherent.cache
    have grammar : (session.prepare symbols).grammar =
        (new session.grammar session.strategy).withFirst.grammar :=
      (coherent.prepare symbols).1.grammar
    refine stranger?_congr grammar ?_ symbols
    unfold Session.prepare
    rw [if_pos leading, missed.coherent.withFirst.2]
    rfl
  · have none := Bool.eq_false_iff.mpr leading
    rw [stranger?_eq_none_of_needsFirst none, stranger?_eq_none_of_needsFirst none]

theorem Reliable.sequence (reliable : session.Reliable) (references : List SymbolReference)
    (memoize : Bool) : (session.sequence references memoize).2.Reliable := by
  refine (reliable.coherent.sequence references memoize).reliable ?_
  have prepared := reliable.coherent.prepared
  unfold Session.sequence
  split
  · exact reliable.familiar
  · rename_i symbols _
    split
    · exact reliable.familiar
    · have kept := prepare_only reliable.familiar symbols
      dsimp only
      split
      · exact kept
      · -- a sequence is remembered only if it was not refused, so a new session accepts it too
        rename_i none
        exact answer_only kept ((prepared symbols).symm.trans none) memoize

theorem Reliable.serve (reliable : session.Reliable) (request : Request) :
    (session.serve request).Reliable := by
  obtain same | same | same | ⟨references, memoize, same⟩ | same := session.serve_leaves request <;>
    rw [same]
  · exact reliable
  · exact reliable.withFirst
  · exact reliable.withFollow
  · exact reliable.sequence references memoize
  · exact reliable.table

/-! ### What a session answers -/

/-- An answer, or why there is none. -/
inductive Reply where
  | sets (listed : List (Symbol × SymbolSet))
  | set (result : Except Error SymbolSet)
  | table (table : ParseTable)

def reply (session : Session) : Request → Reply
  | .firstSets => .sets session.firstSets.1
  | .followSets => .sets session.followSets.1
  | .firstOf reference => .set (session.firstOf reference).1
  | .followOf reference => .set (session.followOf reference).1
  | .sequence references memoize => .set (session.sequence references memoize).1
  | .table => .table session.table.1

/-- The answers to requests that are made one after another. -/
def replies (session : Session) : List Request → List Reply
  | [] => []
  | request :: rest => session.reply request :: (session.serve request).replies rest

theorem Coherent.firstOf_eq (coherent : session.Coherent) (reference : SymbolReference) :
    (session.firstOf reference).1 =
      match session.grammar.resolve reference with
      | .error cause => .error (.grammar cause)
      | .ok symbol =>
        if symbol.isNonterminal && !session.grammar.nonTerminals.contains symbol then
          .error (.unknownNonterminal symbol)
        else .ok ((session.grammar.firstSets session.strategy).firstOf symbol) := by
  obtain ⟨continues, computed⟩ := coherent.withFirst
  unfold Session.firstOf
  cases session.grammar.resolve reference with
  | error cause => rfl
  | ok symbol =>
    dsimp only
    rw [continues.grammar, computed]
    by_cases kind : symbol.isNonterminal = true
    · by_cases known : symbol ∈ session.grammar.nonTerminals <;>
        simp [kind, known, Assignment.firstOf]
    · simp [kind, Assignment.firstOf]

theorem Coherent.followOf_eq (coherent : session.Coherent) (reference : SymbolReference) :
    (session.followOf reference).1 =
      match session.grammar.resolve reference with
      | .error cause => .error (.grammar cause)
      | .ok symbol =>
        if symbol.isNonterminal then
          if session.grammar.nonTerminals.contains symbol then
            .ok ((session.grammar.followAssignment session.strategy).get symbol)
          else .error (.unknownNonterminal symbol)
        else .error (.followUndefined symbol) := by
  obtain ⟨continues, computed⟩ := coherent.withFollow
  unfold Session.followOf
  cases session.grammar.resolve reference with
  | error cause => rfl
  | ok symbol =>
    dsimp only
    rw [continues.grammar, computed]
    by_cases kind : symbol.isNonterminal = true
    · by_cases known : symbol ∈ session.grammar.nonTerminals <;> simp [kind, known]
    · simp [kind]

theorem Reliable.sequence_eq (reliable : session.Reliable) (references : List SymbolReference)
    (memoize : Bool) :
    (session.sequence references memoize).1 =
      match references.mapM session.grammar.resolve with
      | .error cause => .error (.grammar cause)
      | .ok symbols =>
        match (new session.grammar session.strategy).withFirst.stranger? symbols with
        | some symbol => .error (.unknownNonterminal symbol)
        | none => .ok (firstOfSequence (session.grammar.firstSets session.strategy) symbols) := by
  unfold Session.sequence
  cases references.mapM session.grammar.resolve with
  | error cause => rfl
  | ok symbols =>
    dsimp only
    split
    · -- what is remembered has no foreign non-terminal, so a new session would not refuse it
      rename_i set found
      have familiar : (new session.grammar session.strategy).withFirst.stranger? symbols = none :=
        reliable.familiar.allowed_of_find? found
      rw [familiar, reliable.coherent.cache.find? found]
    · rw [reliable.coherent.prepared symbols]
      cases (new session.grammar session.strategy).withFirst.stranger? symbols with
      | some symbol => rfl
      | none => exact congrArg Except.ok (reliable.coherent.prepare symbols).2

/-- A reliable session answers as a new one. -/
theorem Reliable.reply_eq (reliable : session.Reliable) (request : Request) :
    session.reply request = (new session.grammar session.strategy).reply request := by
  have fresh := reliable_new session.grammar session.strategy
  cases request with
  | firstSets =>
    exact congrArg Reply.sets
      (reliable.coherent.firstSets_eq.trans fresh.coherent.firstSets_eq.symm)
  | followSets =>
    exact congrArg Reply.sets
      (reliable.coherent.followSets_eq.trans fresh.coherent.followSets_eq.symm)
  | firstOf reference =>
    exact congrArg Reply.set
      ((reliable.coherent.firstOf_eq reference).trans (fresh.coherent.firstOf_eq reference).symm)
  | followOf reference =>
    exact congrArg Reply.set
      ((reliable.coherent.followOf_eq reference).trans (fresh.coherent.followOf_eq reference).symm)
  | sequence references memoize =>
    exact congrArg Reply.set
      ((reliable.sequence_eq references memoize).trans (fresh.sequence_eq references memoize).symm)
  | table =>
    exact congrArg Reply.table
      (reliable.coherent.table_eq.trans fresh.coherent.table_eq.symm)

theorem Reliable.replies_eq (reliable : session.Reliable) (requests : List Request) :
    session.replies requests = requests.map (new session.grammar session.strategy).reply := by
  induction requests generalizing session with
  | nil => rfl
  | cons request rest ih =>
    have continues := reliable.coherent.serve request
    have later := ih (reliable.serve request)
    rw [continues.grammar, continues.strategy] at later
    rw [replies, List.map_cons, reliable.reply_eq request, later]

/-- Whatever a session is asked, answered or refused, each reply is that of a new session to this
request alone. So a table that is built again has the same cells and the same conflicts in their
order; and only the statistics tell that there was anything before. -/
theorem replies_as_new (grammar : Grammar) (strategy : Strategy) :
    (∀ requests, (new grammar strategy).replies requests =
        requests.map (new grammar strategy).reply) ∧
      (∀ before between,
        let first := ((new grammar strategy).after before).table
        let again := (first.2.after between).table
        again.1.cells = first.1.cells ∧ again.1.conflicts = first.1.conflicts) ∧
      ∃ requests, ((new grammar strategy).after requests).statistics ≠
        (new grammar strategy).statistics := by
  refine ⟨(reliable_new grammar strategy).replies_eq, ?_, [.sequence [] true], ?_⟩
  · intro before between
    have continues := (coherent_new grammar strategy).after before
    have built := continues.coherent.table
    have later := built.coherent.after between
    dsimp only
    rw [later.coherent.table_eq, continues.coherent.table_eq, later.grammar, later.strategy,
      built.grammar, built.strategy]
    exact ⟨rfl, rfl⟩
  · intro same
    exact absurd (congrArg CacheStatistics.misses same) Nat.one_ne_zero

end Session

end Predictive
