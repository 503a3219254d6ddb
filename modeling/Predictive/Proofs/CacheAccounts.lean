import Predictive.Proofs.SequenceCalls
import Mathlib.Data.Set.Card

/-! What a session remembers of sequences, and how it counts its requests. Every request for a
sequence is a hit or a miss, and it is a hit if the sequence was stored before and the FIRST sets
were not computed since. What is remembered are the sequences that were stored so, each once. From
the time when the FIRST sets are there nothing is forgotten: a table that is built again is built
from memory. -/

set_option autoImplicit false

namespace Predictive

namespace SequenceCache

variable {cache : SequenceCache} {symbols : List Symbol}

/-- One request more, which is a hit or a miss. -/
def CountsAs (hit : Prop) (early late : SequenceCache) : Prop :=
  (hit ∧ late.hits = early.hits + 1 ∧ late.misses = early.misses) ∨
    (¬ hit ∧ late.hits = early.hits ∧ late.misses = early.misses + 1)

theorem isSome_find? :
    (cache.find? symbols).isSome ↔ symbols ∈ cache.stored.map Prod.fst := by
  simp [SequenceCache.find?, List.find?_isSome]

theorem stored_subset_ask (first : Assignment) (cache : SequenceCache) (symbols : List Symbol) :
    cache.stored ⊆ (cache.ask first symbols).stored := by
  unfold ask SequenceCache.request
  split
  · exact List.Subset.refl _
  · exact List.subset_cons_self _ _

end SequenceCache

namespace Session

variable {session early middle late : Session} {symbols : List Symbol}
  {references : List SymbolReference}

/-! ### What stays -/

/-- A later state of a session. What was computed stays, and so does what was remembered when the
FIRST sets were there. -/
structure Retains (early late : Session) : Prop where
  first : early.first.isSome → late.first.isSome
  follow : early.follow.isSome → late.follow.isSome
  stored : early.first.isSome → early.cache.stored ⊆ late.cache.stored

theorem Retains.refl (session : Session) : session.Retains session :=
  ⟨id, id, fun _ => List.Subset.refl _⟩

theorem Retains.trans (before : early.Retains middle) (after : middle.Retains late) :
    early.Retains late where
  first computed := after.first (before.first computed)
  follow computed := after.follow (before.follow computed)
  stored computed :=
    List.Subset.trans (before.stored computed) (after.stored (before.first computed))

theorem Retains.withCache {cache : SequenceCache} (kept : session.cache.stored ⊆ cache.stored) :
    session.Retains { session with cache := cache } :=
  ⟨id, id, fun _ => kept⟩

theorem withFirst_retains (session : Session) : session.Retains session.withFirst := by
  unfold Session.withFirst
  split
  · exact .refl session
  · rename_i none
    exact ⟨fun _ => rfl, id, by simp [none]⟩

theorem withFollow_retains (session : Session) : session.Retains session.withFollow := by
  refine (withFirst_retains session).trans ?_
  unfold Session.withFollow
  dsimp only
  generalize session.withFirst = session
  split
  · rename_i first _ _
    refine ⟨id, fun _ => rfl, fun _ => ?_⟩
    rw [(session.grammar.followSets_retraces first session.cache session.strategy).leads]
    refine List.foldlRecOn (motive := fun cache : SequenceCache => session.cache.stored ⊆ cache.stored) _ _
      (List.Subset.refl _) ?_
    exact fun cache kept symbols _ =>
      List.Subset.trans kept (SequenceCache.stored_subset_ask first cache symbols)
  · exact .refl session

theorem prepare_retains (session : Session) (symbols : List Symbol) :
    session.Retains (session.prepare symbols) := by
  have missed : session.Retains { session with cache := session.cache.miss } :=
    .withCache (List.Subset.refl _)
  unfold Session.prepare
  dsimp only
  split
  · exact missed.trans (withFirst_retains _)
  · exact missed

theorem answer_retains (session : Session) (symbols : List Symbol) (memoize : Bool) :
    session.Retains (session.answer symbols memoize).2 := by
  cases memoize with
  | false => exact .refl session
  | true => exact .withCache (List.subset_cons_self _ _)

theorem request_retains (session : Session) (symbols : List Symbol) (memoize : Bool) :
    session.Retains (session.request symbols memoize).2 := by
  unfold Session.request
  split
  · exact .withCache (List.Subset.refl _)
  · exact (prepare_retains session symbols).trans (answer_retains _ symbols memoize)

theorem enterProduction_retains (state : Filling × Session) (production : Production) :
    state.2.Retains (enterProduction state production).2 := by
  have requested := request_retains state.2 production.rhs true
  unfold Session.enterProduction
  dsimp only
  split
  · exact requested.trans (withFollow_retains _)
  · exact requested

theorem foldl_enterProduction_retains (productions : List Production) (state : Filling × Session) :
    state.2.Retains (productions.foldl enterProduction state).2 :=
  List.foldlRecOn (motive := fun next : Filling × Session => state.2.Retains next.2) _ _
    (.refl state.2) fun next kept production _ => kept.trans (enterProduction_retains next production)

/-! ### One request for a sequence -/

/-- How a request for a sequence ends whose symbols are known. -/
inductive Ends (session : Session) (symbols : List Symbol) (memoize : Bool) :
    Except Error SymbolSet × Session → Prop where
  | remembered {set : SymbolSet} (found : session.cache.find? symbols = some set) :
      Ends session symbols memoize (.ok set, { session with cache := session.cache.hit })
  | refused {cause : Error} (missing : session.cache.find? symbols = none) :
      Ends session symbols memoize (.error cause, session.prepare symbols)
  | answered {set : SymbolSet} (missing : session.cache.find? symbols = none) :
      Ends session symbols memoize (.ok set, ((session.prepare symbols).answer symbols memoize).2)

theorem sequence_ends (resolved : references.mapM session.grammar.resolve = .ok symbols)
    (memoize : Bool) : session.Ends symbols memoize (session.sequence references memoize) := by
  unfold Session.sequence
  rw [resolved]
  dsimp only
  split
  · rename_i set found
    exact .remembered found
  · rename_i missing
    split
    · exact .refused missing
    · exact .answered missing

theorem sequence_retains (session : Session) (references : List SymbolReference) (memoize : Bool) :
    session.Retains (session.sequence references memoize).2 := by
  cases resolved : references.mapM session.grammar.resolve with
  | error cause =>
    unfold Session.sequence
    rw [resolved]
    exact .refl session
  | ok symbols =>
    have ends := sequence_ends resolved memoize
    generalize session.sequence references memoize = result at ends ⊢
    cases ends with
    | remembered found => exact .withCache (List.Subset.refl _)
    | refused missing => exact prepare_retains session symbols
    | answered missing =>
      exact (prepare_retains session symbols).trans (answer_retains _ symbols memoize)

theorem serve_retains (session : Session) (request : Request) :
    session.Retains (session.serve request) := by
  obtain same | same | same | ⟨references, memoize, same⟩ | same := session.serve_leaves request <;>
    rw [same]
  · exact .refl session
  · exact withFirst_retains session
  · exact withFollow_retains session
  · exact sequence_retains session references memoize
  · exact foldl_enterProduction_retains session.grammar.productions ({}, session)

theorem after_retains (session : Session) (requests : List Request) :
    session.Retains (session.after requests) :=
  List.foldlRecOn (motive := session.Retains) _ _ (.refl session)
    fun next kept request _ => kept.trans (serve_retains next request)

/-! ### What a plain request stores -/

/-- The FIRST sets are computed between two states of a session. -/
def ComputesFirst (early late : Session) : Prop :=
  early.first.isNone ∧ late.first.isSome

instance (early late : Session) : Decidable (early.ComputesFirst late) :=
  inferInstanceAs (Decidable (_ ∧ _))

/-- A request stores a sequence if it asks to remember it and is answered, but not from memory. -/
inductive Stores (session : Session) : Request → List Symbol → Prop where
  | sequence {references : List SymbolReference} {symbols : List Symbol}
      (resolved : references.mapM session.grammar.resolve = .ok symbols)
      (answered : ∃ set, (session.sequence references true).1 = .ok set)
      (missed : (session.sequence references true).2.cache.misses = session.cache.misses + 1) :
      Stores session (.sequence references true) symbols

/-- A sequence was stored by one of some requests, and the FIRST sets were not computed since. -/
def Keeps (session : Session) (requests : List Request) (symbols : List Symbol) : Prop :=
  ∃ earlier request later, requests = earlier ++ request :: later ∧
    (session.after earlier).Stores request symbols ∧
    ¬ ((session.after earlier).serve request).ComputesFirst (session.after requests)

/-- What is new in memory after a request. All else is as it was, or was forgotten when the FIRST
sets were computed. -/
structure Remembers (early late : Session) (new : List (List Symbol × SymbolSet)) : Prop where
  stored : late.cache.stored = new ++ if early.ComputesFirst late then [] else early.cache.stored
  distinct : (new.map Prod.fst).Nodup
  fresh : ∀ symbols ∈ new.map Prod.fst, symbols ∉ early.cache.stored.map Prod.fst
  counted : early.cache.misses + new.length ≤ late.cache.misses

theorem withFirst_stored (session : Session) : session.withFirst.cache.stored =
    if session.ComputesFirst session.withFirst then [] else session.cache.stored := by
  unfold Session.withFirst ComputesFirst
  split
  · rename_i computed
    simp [computed]
  · rename_i none
    simp [none, SequenceCache.forget]

theorem withFirst_counts (session : Session) :
    session.withFirst.cache.hits = session.cache.hits ∧
      session.withFirst.cache.misses = session.cache.misses := by
  unfold Session.withFirst
  split <;> exact ⟨rfl, rfl⟩

theorem prepare_stored (session : Session) (symbols : List Symbol) :
    (session.prepare symbols).cache.stored =
      if session.ComputesFirst (session.prepare symbols) then [] else session.cache.stored := by
  unfold Session.prepare
  dsimp only
  split
  · exact withFirst_stored { session with cache := session.cache.miss }
  · have unchanged : ¬ session.ComputesFirst { session with cache := session.cache.miss } := by
      simp [ComputesFirst]
    rw [if_neg unchanged]
    rfl

theorem prepare_counts (session : Session) (symbols : List Symbol) :
    (session.prepare symbols).cache.hits = session.cache.hits ∧
      (session.prepare symbols).cache.misses = session.cache.misses + 1 := by
  unfold Session.prepare
  dsimp only
  split
  · exact withFirst_counts { session with cache := session.cache.miss }
  · exact ⟨rfl, rfl⟩

theorem sequence_countsAs (resolved : references.mapM session.grammar.resolve = .ok symbols)
    (memoize : Bool) :
    SequenceCache.CountsAs (session.cache.find? symbols).isSome session.cache
      (session.sequence references memoize).2.cache := by
  have prepared := prepare_counts session symbols
  have ends := sequence_ends resolved memoize
  generalize session.sequence references memoize = result at ends ⊢
  cases ends with
  | remembered found => exact .inl ⟨by simp [found], rfl, rfl⟩
  | refused missing => exact .inr ⟨by simp [missing], prepared⟩
  | answered missing =>
    refine .inr ⟨by simp [missing], ?_⟩
    cases memoize <;> exact prepared

theorem stores_sequence_iff (resolved : references.mapM session.grammar.resolve = .ok symbols)
    {memoize : Bool} {other : List Symbol} :
    session.Stores (.sequence references memoize) other ↔
      memoize = true ∧ other = symbols ∧ session.cache.find? symbols = none ∧
        ∃ set, (session.sequence references true).1 = .ok set := by
  have counts := sequence_countsAs resolved true
  constructor
  · rintro ⟨same, answered, missed⟩
    refine ⟨rfl, Except.ok.inj (same.symm.trans resolved), ?_, answered⟩
    rcases counts with ⟨_, _, hit⟩ | ⟨missing, _⟩
    · omega
    · simpa using missing
  · rintro ⟨rfl, rfl, missing, answered⟩
    refine .sequence resolved answered ?_
    rcases counts with ⟨found, _⟩ | ⟨_, _, missed⟩
    · simp [missing] at found
    · exact missed

theorem Remembers.nothing (stored : late.cache.stored =
      if early.ComputesFirst late then [] else early.cache.stored)
    (counted : early.cache.misses ≤ late.cache.misses) : early.Remembers late [] :=
  ⟨stored, List.nodup_nil, by simp, counted⟩

theorem Remembers.refl (session : Session) (cache : SequenceCache)
    (stored : cache.stored = session.cache.stored) (counted : session.cache.misses ≤ cache.misses) :
    session.Remembers { session with cache := cache } [] := by
  refine .nothing ?_ counted
  have unchanged : ¬ session.ComputesFirst { session with cache := cache } := by
    simp [ComputesFirst]
  rw [if_neg unchanged]
  exact stored

theorem prepare_remembers (session : Session) (symbols : List Symbol) :
    session.Remembers (session.prepare symbols) [] :=
  .nothing (prepare_stored session symbols)
    ((Nat.le_succ _).trans_eq (prepare_counts session symbols).2.symm)

theorem answer_remembers (missing : session.cache.find? symbols = none) :
    session.Remembers ((session.prepare symbols).answer symbols true).2
      [(symbols, ((session.prepare symbols).answer symbols true).1)] where
  stored := by
    have prepared := prepare_stored session symbols
    exact congrArg (List.cons _) prepared
  distinct := List.nodup_singleton _
  fresh := by
    rw [List.map_singleton, List.forall_mem_singleton, ← SequenceCache.isSome_find?, missing]
    simp
  counted := (prepare_counts session symbols).2.ge

theorem sequence_remembers (resolved : references.mapM session.grammar.resolve = .ok symbols)
    (memoize : Bool) :
    ∃ new, session.Remembers (session.sequence references memoize).2 new ∧
      ∀ other, other ∈ new.map Prod.fst ↔ session.Stores (.sequence references memoize) other := by
  simp only [stores_sequence_iff resolved]
  have ends := sequence_ends resolved memoize
  generalize result : session.sequence references memoize = answer at ends
  cases ends with
  | remembered found =>
    exact ⟨[], .refl session session.cache.hit rfl (Nat.le_refl _), by simp [found]⟩
  | refused missing =>
    refine ⟨[], prepare_remembers session symbols, fun other => ?_⟩
    cases memoize <;> simp [result]
  | answered missing =>
    cases memoize with
    | false => exact ⟨[], prepare_remembers session symbols, by simp⟩
    | true => exact ⟨_, answer_remembers missing, by simp [missing, result]⟩

/-- A plain request brings into memory what it stores and nothing else. -/
theorem serve_remembers {request : Request} (plain : request.IsPlain) (session : Session) :
    ∃ new, session.Remembers (session.serve request) new ∧
      ∀ symbols, symbols ∈ new.map Prod.fst ↔ session.Stores request symbols := by
  cases plain with
  | firstSets =>
    refine ⟨[], .nothing (withFirst_stored session) (withFirst_counts session).2.ge, ?_⟩
    simp only [List.map_nil, List.not_mem_nil, false_iff]
    nofun
  | sequence references memoize =>
    cases resolved : references.mapM session.grammar.resolve with
    | ok symbols => exact sequence_remembers resolved memoize
    | error cause =>
      have same : session.serve (.sequence references memoize) = session := by
        change (session.sequence references memoize).2 = session
        unfold Session.sequence
        rw [resolved]
      rw [same]
      refine ⟨[], .refl session session.cache rfl (Nat.le_refl _), fun symbols => ?_⟩
      simp only [List.map_nil, List.not_mem_nil, false_iff]
      rintro ⟨known, _, _⟩
      exact absurd (known.symm.trans resolved) (by simp)

/-! ### What some requests store -/

theorem computesFirst_trans (before : early.Retains middle) (after : middle.Retains late) :
    early.ComputesFirst late ↔ early.ComputesFirst middle ∨ middle.ComputesFirst late := by
  have onward := before.first
  have further := after.first
  simp only [ComputesFirst, Option.isNone_iff_eq_none, ← Option.not_isSome_iff_eq_none]
  tauto

theorem after_concat (session : Session) (requests : List Request) (request : Request) :
    session.after (requests ++ [request]) = (session.after requests).serve request := by
  simp [Session.after]

theorem after_append (session : Session) (first second : List Request) :
    session.after (first ++ second) = (session.after first).after second :=
  List.foldl_append

/-- After one request more, what was kept is kept unless the FIRST sets are computed now, and what
is stored now is kept. -/
theorem keeps_concat {requests : List Request} {request : Request} :
    session.Keeps (requests ++ [request]) symbols ↔
      (session.after requests).Stores request symbols ∨
      (session.Keeps requests symbols ∧
        ¬ (session.after requests).ComputesFirst ((session.after requests).serve request)) := by
  have computes (earlier storing later) (split : requests = earlier ++ storing :: later) :
      ((session.after earlier).serve storing).ComputesFirst
          ((session.after requests).serve request) ↔
        ((session.after earlier).serve storing).ComputesFirst (session.after requests) ∨
          (session.after requests).ComputesFirst ((session.after requests).serve request) := by
    rw [split, after_append]
    exact computesFirst_trans (after_retains _ later) (serve_retains _ request)
  constructor
  · rintro ⟨earlier, storing, later, split, stores, held⟩
    rcases List.eq_nil_or_concat later with rfl | ⟨later, last, rfl⟩
    · obtain ⟨rfl, same⟩ := List.append_inj' split rfl
      obtain rfl := List.singleton_inj.mp same
      exact .inl stores
    · rw [List.concat_eq_append, ← List.cons_append, ← List.append_assoc] at split
      obtain ⟨before, same⟩ := List.append_inj' split rfl
      obtain rfl := List.singleton_inj.mp same
      rw [after_concat, computes earlier storing later before, not_or] at held
      exact .inr ⟨⟨earlier, storing, later, before, stores, held.1⟩, held.2⟩
  · rintro (stores | ⟨⟨earlier, storing, later, split, stores, held⟩, still⟩)
    · refine ⟨requests, request, [], rfl, stores, ?_⟩
      rw [after_concat]
      simp [ComputesFirst]
    · refine ⟨earlier, storing, later ++ [request], by simp [split], stores, ?_⟩
      rw [after_concat, computes earlier storing later split]
      exact not_or.mpr ⟨held, still⟩

/-- What a session remembers are the sequences that its requests stored, each of them once, and no
more than it counts as missed. -/
structure Tallies (session : Session) (requests : List Request) : Prop where
  keys : ∀ symbols, symbols ∈ (session.after requests).cache.stored.map Prod.fst ↔
    session.Keeps requests symbols
  distinct : ((session.after requests).cache.stored.map Prod.fst).Nodup
  bounded : (session.after requests).cache.stored.length ≤ (session.after requests).cache.misses

theorem tallies_plain (empty : session.cache.stored = []) {requests : List Request}
    (plain : ∀ request ∈ requests, request.IsPlain) : session.Tallies requests := by
  -- from the last request, as it decides what is left of all that was stored before
  induction requests using List.reverseRecOn with
  | nil =>
    refine ⟨fun symbols => ?_, by simp [Session.after, empty], by simp [Session.after, empty]⟩
    simp [Session.after, empty, Keeps]
  | append_singleton requests request ih =>
    obtain ⟨others, own⟩ := List.forall_mem_append.mp plain
    have tallies := ih others
    obtain ⟨new, remembers, stored⟩ :=
      serve_remembers (own request (List.mem_singleton_self request)) (session.after requests)
    have left : (if (session.after requests).ComputesFirst ((session.after requests).serve request)
        then [] else (session.after requests).cache.stored).Sublist
          (session.after requests).cache.stored := by
      split
      · exact List.nil_sublist _
      · exact List.Sublist.refl _
    have bounded := tallies.bounded
    have counted := remembers.counted
    refine ⟨fun symbols => ?_, ?_, ?_⟩ <;> rw [after_concat, remembers.stored]
    · rw [List.map_append, List.mem_append, stored, keeps_concat, ← tallies.keys]
      by_cases computes : (session.after requests).ComputesFirst
          ((session.after requests).serve request) <;> simp [computes]
    · rw [List.map_append]
      have fewer := left.map Prod.fst
      refine List.nodup_append'.mpr ⟨remembers.distinct, fewer.nodup tallies.distinct, ?_⟩
      exact fun symbols added old => remembers.fresh symbols added (fewer.subset old)
    · rw [List.length_append]
      have shorter := left.length_le
      omega

theorem Tallies.encard_eq {requests : List Request} (tallies : session.Tallies requests) :
    {symbols | session.Keeps requests symbols}.encard =
      (session.after requests).cache.stored.length := by
  have keys : {symbols | session.Keeps requests symbols} =
      ↑((session.after requests).cache.stored.map Prod.fst).toFinset := by
    ext symbols
    rw [List.coe_toFinset]
    exact (tallies.keys symbols).symm
  rw [keys, Set.encard_coe_eq_coe_finsetCard, List.toFinset_card_of_nodup tallies.distinct,
    List.length_map]

/-! ### Tables from memory -/

theorem withFollow_eq_self (first : session.first.isSome) (follow : session.follow.isSome) :
    session.withFollow = session := by
  obtain ⟨sets, first⟩ := Option.isSome_iff_exists.mp first
  obtain ⟨others, follow⟩ := Option.isSome_iff_exists.mp follow
  unfold Session.withFollow
  dsimp only
  rw [withFirst_eq_self first, first, follow]

theorem isSome_follow_withFollow (session : Session) : session.withFollow.follow.isSome := by
  obtain ⟨sets, first⟩ := first_withFirst session
  unfold Session.withFollow
  dsimp only
  rw [first]
  cases known : session.withFirst.follow with
  | some follow => simp [known]
  | none => rfl

/-- All that a production is entered by is remembered. -/
structure Ready (session : Session) (production : Production) : Prop where
  first : session.first.isSome
  stored : production.rhs ∈ session.cache.stored.map Prod.fst
  follow : .epsilon ∈ firstOfSequence (session.grammar.firstSets session.strategy) production.rhs →
    session.follow.isSome

variable {production : Production}

theorem Ready.mono (ready : early.Ready production) (continues : early.Continues late)
    (retains : early.Retains late) : late.Ready production where
  first := retains.first ready.first
  stored := List.map_subset _ (retains.stored ready.first) ready.stored
  follow empty := by
    rw [continues.grammar, continues.strategy] at empty
    exact retains.follow (ready.follow empty)

theorem mem_stored_request (session : Session) (symbols : List Symbol) :
    symbols ∈ (session.request symbols true).2.cache.stored.map Prod.fst := by
  unfold Session.request
  split
  · rename_i set found
    exact SequenceCache.isSome_find?.mp (found ▸ rfl)
  · exact List.mem_cons_self ..

theorem enterProduction_ready (coherent : session.Coherent) (computed : session.first.isSome)
    (filling : Filling) : (enterProduction (filling, session) production).2.Ready production := by
  obtain ⟨requested, found⟩ := coherent.request production.rhs true
  have first := (request_retains session production.rhs true).first computed
  have stored := mem_stored_request session production.rhs
  have retains := withFollow_retains (session.request production.rhs true).2
  have continues := requested.coherent.withFollow.1
  unfold Session.enterProduction
  dsimp only
  split
  · exact ⟨retains.first first, List.map_subset _ (retains.stored first) stored,
      fun _ => isSome_follow_withFollow _⟩
  · rename_i visible
    refine ⟨first, stored, fun empty => absurd ?_ visible⟩
    rw [found, ← requested.grammar, ← requested.strategy]
    exact empty

/-- A table leaves all that it is built from, if it begins with the FIRST sets. -/
theorem foldl_enterProduction_ready (coherent : session.Coherent) (computed : session.first.isSome)
    (filling : Filling) (productions : List Production) :
    ∀ production ∈ productions,
      (productions.foldl enterProduction (filling, session)).2.Ready production := by
  induction productions generalizing filling session with
  | nil => simp
  | cons production rest ih =>
    have entered := coherent.enterProduction filling production
    have retains := enterProduction_retains (filling, session) production
    refine List.forall_mem_cons.mpr ⟨?_, ih entered.coherent (retains.first computed) _⟩
    -- what the first production left is there after the others
    exact (enterProduction_ready coherent computed filling).mono
      (entered.coherent.enterProductions _ rest) (foldl_enterProduction_retains rest _)

theorem Ready.enterProduction (ready : session.Ready production) (coherent : session.Coherent)
    (filling : Filling) :
    (enterProduction (filling, session) production).2 =
      { session with cache := session.cache.hit } := by
  obtain ⟨set, found⟩ := Option.isSome_iff_exists.mp (SequenceCache.isSome_find?.mpr ready.stored)
  have answered : session.request production.rhs true =
      (set, { session with cache := session.cache.hit }) := by
    unfold Session.request
    rw [found]
  unfold Session.enterProduction
  dsimp only
  rw [answered]
  split
  · rename_i empty
    rw [coherent.cache.find? found] at empty
    exact withFollow_eq_self ready.first (ready.follow empty)
  · rfl

/-- Productions that are entered from memory make one hit each. -/
theorem foldl_ready (coherent : session.Coherent) (filling : Filling)
    {productions : List Production} (ready : ∀ production ∈ productions, session.Ready production) :
    (productions.foldl enterProduction (filling, session)).2.cache =
      { session.cache with hits := session.cache.hits + productions.length } := by
  induction productions generalizing filling session with
  | nil => rfl
  | cons production rest ih =>
    obtain ⟨own, others⟩ := List.forall_mem_cons.mp ready
    have entered : Session.enterProduction (filling, session) production =
        ((Session.enterProduction (filling, session) production).1,
          { session with cache := session.cache.hit }) :=
      Prod.ext rfl (own.enterProduction coherent filling)
    have continues := coherent.withCache session.cache.hit coherent.cache
    have later := ih continues.coherent (Session.enterProduction (filling, session) production).1
      fun other member => (others other member).mono continues (.withCache (List.Subset.refl _))
    rw [List.foldl_cons, List.length_cons, Nat.add_comm rest.length, ← Nat.add_assoc, entered]
    exact later

/-- A table that follows one begun with the FIRST sets is built from memory. -/
theorem Coherent.table_again (coherent : session.Coherent) (computed : session.first.isSome)
    (between : List Request) :
    let again := session.table.2.after between
    again.table.2.cache.hits = again.cache.hits + session.grammar.productions.length ∧
      again.table.2.cache.misses = again.cache.misses := by
  intro again
  have later := coherent.table.coherent.after between
  have same : again.grammar = session.grammar := later.grammar.trans coherent.table.grammar
  have ready : ∀ production ∈ again.grammar.productions, again.Ready production := by
    rw [same]
    intro production declared
    have left := foldl_enterProduction_ready coherent computed {} _ production declared
    exact left.mono later (after_retains _ between)
  have counted : again.table.2.cache =
      { again.cache with hits := again.cache.hits + again.grammar.productions.length } :=
    foldl_ready later.coherent {} ready
  rw [counted, same]
  exact ⟨rfl, rfl⟩

theorem Reliable.after (reliable : session.Reliable) (requests : List Request) :
    (session.after requests).Reliable :=
  List.foldlRecOn (motive := Reliable) _ _ reliable fun _ kept request _ => kept.serve request

/-- A session that has forgotten all sequences. -/
def forgetful (session : Session) : Session :=
  { session with cache := session.cache.forget }

theorem Reliable.forgetful (reliable : session.Reliable) : session.forgetful.Reliable :=
  (reliable.coherent.withCache _ (.empty _ _)).reliable .forget

/-- What is remembered is what is answered without memory. -/
theorem Reliable.answer_of_stored (reliable : session.Reliable) {entry : List Symbol × SymbolSet}
    (member : entry ∈ session.cache.stored) {other : Session} (sound : other.Reliable)
    (grammar : other.grammar = session.grammar) (strategy : other.strategy = session.strategy)
    (memoize : Bool) :
    (other.sequence (entry.1.map .exact) memoize).1 = .ok entry.2 := by
  have familiar : (new session.grammar session.strategy).withFirst.stranger? entry.1 = none :=
    reliable.familiar entry member
  rw [sound.sequence_eq, Grammar.mapM_resolve_exact, grammar, strategy]
  dsimp only
  rw [familiar, reliable.coherent.cache entry member]

/-- Whatever a session is asked, it does what the plain requests do that serve it. Each of these for a
sequence of known symbols is counted once, and as a hit if and only if the sequence was stored before
and the FIRST sets were not computed since. What is remembered are the sequences that were stored so.
They are no more than the misses, and their sets are what a session without memory answers. None that
is there with the FIRST sets is ever lost, so after a table that began with them any other makes one
hit for each production and no miss. -/
theorem sequence_cache_accounts (grammar : Grammar) (strategy : Strategy)
    (requests : List Request) :
    let fresh := new grammar strategy
    let session := fresh.after requests
    let calls := fresh.callsOf requests
    ((∀ call ∈ calls, call.IsPlain) ∧ fresh.after calls = session.withoutFollow) ∧
      (∀ earlier references memoize later symbols,
        calls = earlier ++ .sequence references memoize :: later →
        references.mapM grammar.resolve = .ok symbols →
        SequenceCache.CountsAs (fresh.Keeps earlier symbols) (fresh.after earlier).cache
          (fresh.after (earlier ++ [.sequence references memoize])).cache) ∧
      ({symbols | fresh.Keeps calls symbols}.encard = session.statistics.cached ∧
        session.statistics.cached ≤ session.statistics.misses) ∧
      (∀ entry ∈ session.cache.stored, ∀ others memoize,
        ((fresh.after others).forgetful.sequence (entry.1.map .exact) memoize).1 = .ok entry.2) ∧
      (∀ earlier later, calls = earlier ++ later → (fresh.after earlier).first.isSome →
        ∀ entry ∈ (fresh.after earlier).cache.stored, entry ∈ session.cache.stored) ∧
      (session.first.isSome → ∀ between,
        let again := session.table.2.after between
        again.table.2.statistics.hits = again.statistics.hits + grammar.productions.length ∧
          again.table.2.statistics.misses = again.statistics.misses) := by
  intro fresh session calls
  have retraces : Retraces serve Request.IsPlain fresh calls session.withoutFollow :=
    after_retraces fresh requests
  have same : fresh.after calls = session.withoutFollow := retraces.leads.symm
  have continues := continues_new grammar strategy requests
  have reliable : session.Reliable := (reliable_new grammar strategy).after requests
  have tallies : fresh.Tallies calls := tallies_plain rfl retraces.entries
  refine ⟨⟨retraces.entries, same⟩, ?_, ⟨?_, ?_⟩, ?_, ?_, ?_⟩
  · intro earlier references memoize later symbols split resolved
    have before : fresh.Tallies earlier := tallies_plain rfl fun call member =>
      retraces.entries call (by simp [split, member])
    have known : (fresh.after earlier).grammar = grammar :=
      (continues_new grammar strategy earlier).grammar
    rw [← before.keys, ← SequenceCache.isSome_find?, after_concat]
    exact sequence_countsAs (by rw [known]; exact resolved) memoize
  · have counted := tallies.encard_eq
    rw [same] at counted
    exact counted
  · have bounded := tallies.bounded
    rw [same] at bounded
    exact bounded
  · intro entry member others memoize
    have onward := continues_new grammar strategy others
    exact reliable.answer_of_stored member
      (((reliable_new grammar strategy).after others).forgetful)
      (onward.grammar.trans continues.grammar.symm) (onward.strategy.trans continues.strategy.symm)
      memoize
  · intro earlier later split computed entry member
    have kept := (after_retains (fresh.after earlier) later).stored computed member
    rw [← after_append, ← split, same] at kept
    exact kept
  · intro computed between
    have counted := continues.coherent.table_again computed between
    rw [continues.grammar] at counted
    exact counted

/-- The sequence was remembered before the FIRST sets were computed, and the second table finds all
five right-hand sides. -/
theorem sequence_cache_accounts_recursiveSample :
    let fresh := new recursiveSample .recursive
    let session := fresh.after [.sequence [.named "a"] true, .firstOf (.named "S")]
    let again := session.table.2.after [.sequence [.named "S", .named "a"] false]
    ([.terminal "a"] ∈ (fresh.after [.sequence [.named "a"] true]).cache.stored.map Prod.fst ∧
        {symbols | fresh.Keeps (fresh.callsOf [.sequence [.named "a"] true, .firstOf (.named "S")])
          symbols}.encard = 0) ∧
      session.first.isSome ∧ again.table.2.statistics.hits = again.statistics.hits + 5 ∧
      again.table.2.statistics.misses = again.statistics.misses := by
  intro fresh session again
  obtain ⟨_, _, ⟨counted, _⟩, _, _, tables⟩ := sequence_cache_accounts recursiveSample .recursive
    [.sequence [.named "a"] true, .firstOf (.named "S")]
  have computed : session.first.isSome := rfl
  have nothing : session.statistics.cached = 0 := rfl
  rw [nothing] at counted
  exact ⟨⟨by decide, counted⟩, computed, tables computed [.sequence [.named "S", .named "a"] false]⟩

end Session

end Predictive
