import Predictive.Proofs.FirstSets

/-! FIRST sets by descent. Each descent asks only for symbols that can come first, so the open
non-terminals form a chain of symbols that reach each other on the left. Whatever is answered is
there by the rules; and without left recursion no symbol comes back while it is open, so that
nothing is missed. -/

set_option autoImplicit false

namespace Predictive

namespace Grammar

variable (grammar : Grammar)

/-- A non-terminal in a production of another, behind symbols that all derive the empty string. -/
def LeftReaches (owner symbol : Symbol) : Prop :=
  ∃ production ∈ grammar.productions, production.lhs = owner ∧ symbol.isNonterminal = true ∧
    ∃ before after, production.rhs = before ++ symbol :: after ∧
      ∀ other ∈ before, grammar.Derives (withoutEpsilon [other]) []

def LeftRecursive : Prop :=
  ∃ symbol, Relation.TransGen grammar.LeftReaches symbol symbol

/-- A set that holds only what opens some symbols, and all of that without left recursion. -/
structure Approximates (symbols : List Symbol) (set : SymbolSet) : Prop where
  sound : ∀ element ∈ set, grammar.Opens element symbols
  complete : ¬ grammar.LeftRecursive → ∀ element, grammar.Opens element symbols → element ∈ set

/-- The finished sets on the way of the descents. -/
structure Ready (finished : Assignment) : Prop where
  within : finished.Within grammar.nonTerminals grammar.firstRange
  approximates : ∀ symbol set, finished.find? symbol = some set →
    grammar.Approximates [symbol] set

/-- What an answer for some symbols promises, where `finished` was there before. -/
structure Answers (symbols : List Symbol) (finished : Assignment)
    (answer : SymbolSet × Assignment) : Prop where
  approximates : grammar.Approximates symbols answer.1
  ready : grammar.Ready answer.2
  kept : finished.Kept answer.2

variable {grammar} {finished : Assignment} {symbol element : Symbol} {symbols : List Symbol}

theorem Approximates.union {left right : SymbolSet} (first : grammar.Approximates symbols left)
    (second : grammar.Approximates symbols right) :
    grammar.Approximates symbols (left.union right) where
  sound := by
    intro element member
    rcases SymbolSet.mem_union.mp member with inside | inside
    · exact first.sound element inside
    · exact second.sound element inside
  complete := fun free element opens =>
    SymbolSet.mem_union.mpr (.inl (first.complete free element opens))

theorem Ready.firstSound (ready : grammar.Ready finished) : finished.FirstSound grammar := by
  intro symbol element member
  unfold Assignment.get at member
  cases found : finished.find? symbol with
  | none => simp [found] at member
  | some set =>
    rw [found] at member
    exact (ready.approximates symbol set found).sound element member

theorem mem_firstByPasses_get_iff (known : symbol ∈ grammar.nonTerminals) :
    element ∈ grammar.firstByPasses.get symbol ↔ grammar.Opens element [symbol] := by
  rw [← firstOf_nonterminal (isNonterminal_of_mem known), ← mem_firstOfSequence_singleton,
    mem_firstByPasses_iff_opens]

theorem mem_firstRange_of_opens (known : symbol ∈ grammar.nonTerminals)
    (opens : grammar.Opens element [symbol]) : element ∈ grammar.firstRange :=
  grammar.firstByPasses_within.get ((mem_firstByPasses_get_iff known).mpr opens)

theorem Ready.add (ready : grammar.Ready finished) (known : symbol ∈ grammar.nonTerminals)
    {set : SymbolSet} (approximates : grammar.Approximates [symbol] set) :
    grammar.Ready (finished.add symbol set) where
  within := ready.within.add known fun element member =>
    mem_firstRange_of_opens known (approximates.sound element member)
  approximates := by
    intro other held found
    rw [Assignment.find?_add] at found
    split at found
    · rename_i same
      subst same
      rw [← Option.some.inj found]
      cases before : finished.find? other with
      | none => exact approximates
      | some old => exact (ready.approximates other old before).union approximates
    · exact ready.approximates other held found

theorem approximates_leaf (kind : symbol.isNonterminal = false) :
    grammar.Approximates [symbol] (.singleton symbol) where
  sound := by
    intro element member
    obtain rfl := SymbolSet.mem_singleton.mp member
    have trivial : Assignment.empty.FirstSound grammar := grammar.empty_within_sound.2
    exact trivial.firstOf (by simp [Assignment.firstOf, kind])
  complete := by
    intro _ element opens
    have found := mem_firstByPasses_iff_opens.mpr opens
    rw [mem_firstOfSequence_singleton] at found
    simpa [Assignment.firstOf, kind] using found

/-! ### One right-hand side, and all of a non-terminal -/

/-- Only symbols behind vanishing ones are asked for. -/
theorem scanFirst_answers {ask : Assignment → Symbol → SymbolSet × Assignment}
    (asked : ∀ finished, grammar.Ready finished → ∀ before symbol after,
      symbols = before ++ symbol :: after → (∀ other ∈ before, grammar.Vanishes other) →
        grammar.Answers [symbol] finished (ask finished symbol))
    (ready : grammar.Ready finished) :
    grammar.Answers symbols finished (scanFirst ask finished symbols) := by
  -- by the symbols: whether the rest is asked for depends on the answer for the first one
  induction symbols generalizing finished with
  | nil =>
    refine ⟨⟨?_, ?_⟩, ready, .refl finished⟩
    · intro element member
      exact .inl ⟨SymbolSet.mem_singleton.mp member, by simp⟩
    · rintro _ element (⟨rfl, _⟩ | ⟨before, symbol, after, split, _⟩)
      · exact SymbolSet.mem_singleton.mpr rfl
      · simp at split
  | cons symbol rest ih =>
    have own := asked finished ready [] symbol rest rfl (by simp)
    unfold scanFirst
    dsimp only
    split
    · rename_i empty
      -- the answer is sound even under left recursion, so the first symbol vanishes
      have vanishes := (own.approximates.sound _ empty).vanishes
      have later := ih (fun finished ready before other after split vanish =>
        asked finished ready (symbol :: before) other after (by rw [split]; rfl)
          (List.forall_mem_cons.mpr ⟨vanishes, vanish⟩)) own.ready
      refine ⟨⟨?_, ?_⟩, later.ready, own.kept.trans later.kept⟩
      · intro element member
        rcases SymbolSet.mem_union.mp member with leading | behind
        · obtain ⟨inside, visible⟩ := SymbolSet.mem_without.mp leading
          exact (own.approximates.sound element inside).cons visible
        · exact .of_vanishing vanishes (later.approximates.sound element behind)
      · intro free element opens
        rcases opens.of_cons with ⟨leading, visible⟩ | ⟨_, behind⟩
        · exact SymbolSet.mem_union.mpr (.inl (SymbolSet.mem_without.mpr
            ⟨own.approximates.complete free element leading, visible⟩))
        · exact SymbolSet.mem_union.mpr (.inr (later.approximates.complete free element behind))
    · rename_i visible
      refine ⟨⟨?_, ?_⟩, own.ready, own.kept⟩
      · intro element member
        refine (own.approximates.sound element member).cons ?_
        exact fun same => visible (same ▸ member)
      · intro free element opens
        rcases opens.of_cons with ⟨leading, _⟩ | ⟨vanishes, _⟩
        · exact own.approximates.complete free element leading
        · -- a vanishing symbol would have answered with the empty string
          exact absurd (own.approximates.complete free .epsilon (.inl ⟨rfl, by simpa⟩)) visible

/-- The answers for the right-hand sides of some productions, taken together. -/
theorem collectFirst_answers {ask : Assignment → Symbol → SymbolSet × Assignment}
    {productions : List Production}
    (asked : ∀ finished, grammar.Ready finished → ∀ production ∈ productions,
      grammar.Answers production.rhs finished (scanFirst ask finished production.rhs))
    (ready : grammar.Ready finished) :
    (∀ element ∈ (collectFirst ask finished productions).1,
        ∃ production ∈ productions, grammar.Opens element production.rhs) ∧
      (¬ grammar.LeftRecursive → ∀ production ∈ productions, ∀ element,
        grammar.Opens element production.rhs →
          element ∈ (collectFirst ask finished productions).1) ∧
      grammar.Ready (collectFirst ask finished productions).2 ∧
        finished.Kept (collectFirst ask finished productions).2 := by
  induction productions generalizing finished with
  | nil =>
    exact ⟨fun _ member => absurd member (SymbolSet.not_mem_empty _), by simp, ready,
      .refl finished⟩
  | cons production rest ih =>
    have own := asked finished ready production (by simp)
    obtain ⟨sound, complete, after, kept⟩ := ih (fun finished ready other member =>
      asked finished ready other (List.mem_cons_of_mem _ member)) own.ready
    unfold collectFirst
    dsimp only
    refine ⟨?_, ?_, after, own.kept.trans kept⟩
    · intro element member
      rcases SymbolSet.mem_union.mp member with inside | later
      · exact ⟨production, by simp, own.approximates.sound element inside⟩
      · obtain ⟨other, declared, opens⟩ := sound element later
        exact ⟨other, List.mem_cons_of_mem _ declared, opens⟩
    · intro free other declared element opens
      rcases List.mem_cons.mp declared with rfl | declared
      · exact SymbolSet.mem_union.mpr (.inl (own.approximates.complete free element opens))
      · exact SymbolSet.mem_union.mpr (.inr (complete free other declared element opens))

/-! ### Descents -/

/-- Open symbols are different, so a depth above the number of all non-terminals suffices; and
each of them reaches the symbol that is asked for on the left. -/
theorem firstByDescent_answers (depth : Nat) {opened : List Symbol} (distinct : opened.Nodup)
    (declared : ∀ other ∈ opened, other ∈ grammar.nonTerminals)
    (enough : grammar.nonTerminals.length < opened.length + depth)
    (known : symbol.isNonterminal = true → symbol ∈ grammar.nonTerminals)
    (chain : symbol.isNonterminal = true →
      ∀ other ∈ opened, Relation.TransGen grammar.LeftReaches other symbol)
    (ready : grammar.Ready finished) :
    grammar.Answers [symbol] finished (grammar.firstByDescent depth opened finished symbol) := by
  induction depth generalizing opened finished symbol with
  | zero =>
    have few := (distinct.subperm declared).length_le
    omega
  | succ depth ih =>
    unfold firstByDescent
    cases kind : symbol.isNonterminal with
    | false => exact ⟨approximates_leaf kind, ready, .refl finished⟩
    | true =>
      cases found : finished.find? symbol with
      | some set => exact ⟨ready.approximates symbol set found, ready, .refl finished⟩
      | none =>
        by_cases open? : opened.contains symbol = true
        · -- a symbol that comes back reaches itself
          simp only [Bool.not_true, Bool.false_eq_true, if_false, open?, if_true]
          refine ⟨⟨fun _ member => absurd member (SymbolSet.not_mem_empty _), ?_⟩, ready,
            .refl finished⟩
          intro free
          exact absurd ⟨symbol, chain kind symbol (by simpa using open?)⟩ free
        · simp only [Bool.not_true, Bool.false_eq_true, if_false, open?]
          have closed : symbol ∉ opened := by simpa using open?
          -- one level deeper the symbol is open as well, and reaches whatever is asked for
          have asked : ∀ finished, grammar.Ready finished →
              ∀ production ∈ grammar.productionsOf symbol,
                grammar.Answers production.rhs finished
                  (scanFirst (grammar.firstByDescent depth (symbol :: opened)) finished
                    production.rhs) := by
            intro finished ready production own
            obtain ⟨listed, owner⟩ := mem_productionsOf.mp own
            refine scanFirst_answers ?_ ready
            intro finished ready before leader after split vanish
            have reached : leader.isNonterminal = true → grammar.LeftReaches symbol leader :=
              fun kind => ⟨production, listed, owner, kind, before, after, split,
                fun other member => (vanish other member).derives⟩
            refine ih (List.nodup_cons.mpr ⟨closed, distinct⟩) ?_ ?_ ?_ ?_ ready
            · exact List.forall_mem_cons.mpr ⟨known kind, declared⟩
            · rw [List.length_cons]
              omega
            · exact mem_nonTerminals_of_rhs listed (by simp [split])
            · intro leading
              refine List.forall_mem_cons.mpr ⟨.single (reached leading), ?_⟩
              exact fun other member => (chain kind other member).tail (reached leading)
          obtain ⟨sound, complete, after, kept⟩ := collectFirst_answers asked ready
          have answer : grammar.Approximates [symbol]
              (collectFirst (grammar.firstByDescent depth (symbol :: opened)) finished
                (grammar.productionsOf symbol)).1 := by
            constructor
            · intro element member
              obtain ⟨production, own, opens⟩ := sound element member
              obtain ⟨listed, rfl⟩ := mem_productionsOf.mp own
              exact .of_rhs listed opens
            · intro free element opens
              obtain ⟨production, listed, owner, inside⟩ := opens.exists_rhs kind
              exact complete free production (mem_productionsOf.mpr ⟨listed, owner⟩) element inside
          exact ⟨answer, after.add (known kind) answer, kept.trans (Assignment.kept_add _ _ _)⟩

/-- A non-terminal is finished when it was asked for at the top. -/
theorem isSome_find?_firstByDescent (depth : Nat) (kind : symbol.isNonterminal = true) :
    ((grammar.firstByDescent (depth + 1) [] finished symbol).2.find? symbol).isSome := by
  unfold firstByDescent
  simp only [kind, Bool.not_true, Bool.false_eq_true, if_false]
  cases found : finished.find? symbol with
  | some set => simp [found]
  | none => exact Assignment.isSome_find?_add.mpr (.inr rfl)

/-- One descent from each of some non-terminals. -/
theorem descents_ready (listed : ∀ symbol ∈ symbols, symbol ∈ grammar.nonTerminals)
    (ready : grammar.Ready finished) :
    let last := symbols.foldl (fun finished symbol =>
      (grammar.firstByDescent (grammar.nonTerminals.length + 1) [] finished symbol).2) finished
    grammar.Ready last ∧ finished.Kept last ∧ ∀ symbol ∈ symbols, (last.find? symbol).isSome := by
  induction symbols generalizing finished with
  | nil => exact ⟨ready, .refl finished, by simp⟩
  | cons symbol rest ih =>
    obtain ⟨known, others⟩ := List.forall_mem_cons.mp listed
    have answered : grammar.Answers [symbol] finished _ :=
      firstByDescent_answers (grammar.nonTerminals.length + 1) List.nodup_nil (by simp) (by simp)
        (fun _ => known) (by simp) ready
    obtain ⟨last, kept, found⟩ := ih others answered.ready
    refine ⟨last, answered.kept.trans kept, List.forall_mem_cons.mpr ⟨?_, found⟩⟩
    exact kept symbol (isSome_find?_firstByDescent _ (isNonterminal_of_mem known))

variable (grammar)

theorem ready_empty : grammar.Ready .empty :=
  ⟨.empty, by simp⟩

theorem firstByRecursion_ready : grammar.Ready grammar.firstByRecursion :=
  (descents_ready (fun _ listed => listed) grammar.ready_empty).1

variable {grammar}

/-- Every set of the descents lies within that of the passes. -/
theorem firstByRecursion_below : grammar.firstByRecursion.Below grammar.firstByPasses := by
  intro symbol element member
  rw [mem_firstByPasses_get_iff (grammar.firstByRecursion_ready.within.owner member)]
  exact grammar.firstByRecursion_ready.firstSound symbol element member

/-- Without left recursion the descents miss nothing. -/
theorem firstByPasses_below (free : ¬ grammar.LeftRecursive) :
    grammar.firstByPasses.Below grammar.firstByRecursion := by
  intro symbol element member
  have known : symbol ∈ grammar.nonTerminals := grammar.firstByPasses_within.owner member
  -- what has a set by passes was asked for at the top, so it is finished
  obtain ⟨ready, _, found⟩ := descents_ready (fun _ listed => listed) grammar.ready_empty
  obtain ⟨set, held⟩ := Option.isSome_iff_exists.mp (found symbol known)
  have inside := (ready.approximates symbol set held).complete free element
    ((mem_firstByPasses_get_iff known).mp member)
  unfold firstByRecursion Assignment.get
  dsimp only
  rw [held]
  exact inside

/-! ### Left recursion by ranks -/

/-- The symbols before which all of a sequence can be empty, as some FIRST sets say. -/
def leadingSymbols (first : Assignment) : List Symbol → List Symbol
  | [] => []
  | symbol :: rest =>
    symbol :: if .epsilon ∈ first.firstOf symbol then leadingSymbols first rest else []

theorem mem_leadingSymbols {before after : List Symbol}
    (empty : ∀ other ∈ before, grammar.Derives (withoutEpsilon [other]) []) :
    symbol ∈ leadingSymbols grammar.firstByPasses (before ++ symbol :: after) := by
  induction before with
  | nil => simp [leadingSymbols]
  | cons first rest ih =>
    obtain ⟨own, others⟩ := List.forall_mem_cons.mp empty
    have inside : .epsilon ∈ grammar.firstByPasses.firstOf first := by
      rw [← mem_firstOfSequence_singleton]
      exact epsilon_mem_firstByPasses_iff.mpr own
    rw [List.cons_append, leadingSymbols, if_pos inside]
    exact List.mem_cons_of_mem _ (ih others)

/-- A rank that goes down to every non-terminal that can come first excludes left recursion. -/
theorem not_leftRecursive_of_rank (rank : Symbol → Nat)
    (down : ∀ production ∈ grammar.productions,
      ∀ symbol ∈ leadingSymbols grammar.firstByPasses production.rhs,
        symbol.isNonterminal = true → rank symbol < rank production.lhs) :
    ¬ grammar.LeftRecursive := by
  have lower : ∀ owner symbol, Relation.TransGen grammar.LeftReaches owner symbol →
      rank symbol < rank owner := by
    have step : ∀ owner symbol, grammar.LeftReaches owner symbol → rank symbol < rank owner := by
      rintro owner symbol ⟨production, declared, rfl, kind, before, after, split, empty⟩
      exact down production declared symbol (split ▸ mem_leadingSymbols empty) kind
    intro owner symbol reached
    induction reached with
    | single reaches => exact step _ _ reaches
    | tail _ reaches ih => exact Nat.lt_trans (step _ _ reaches) ih
  rintro ⟨symbol, cycle⟩
  exact Nat.lt_irrefl _ (lower symbol symbol cycle)

end Grammar

end Predictive
