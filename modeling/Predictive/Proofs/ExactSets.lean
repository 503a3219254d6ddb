import Predictive.Proofs.Sessions

/-! The answers of a session under the fixed-point strategy, after any requests. FIRST of a sequence
holds the leaves with which derived strings begin, and the empty string if it is derived; FOLLOW of
a non-terminal holds the leaves that stand behind it in what is derived, and the end of input if it
can end what the start symbol derives. -/

set_option autoImplicit false

namespace Predictive

namespace Session

variable {session : Session}

theorem stranger?_eq_none {symbols : List Symbol}
    (known : ∀ symbol ∈ symbols, symbol.isNonterminal = true →
      symbol ∈ session.grammar.nonTerminals) : session.stranger? symbols = none := by
  induction symbols with
  | nil => rfl
  | cons symbol rest ih =>
    have own := known symbol (by simp)
    have later := ih fun other member => known other (List.mem_cons_of_mem _ member)
    unfold stranger?
    rw [later, if_neg, ite_self]
    intro foreign
    simp only [Bool.and_eq_true, Bool.not_eq_true', List.contains_eq_mem,
      decide_eq_false_iff_not] at foreign
    exact foreign.2 (own foreign.1)

theorem Coherent.sequence_answer (coherent : session.Coherent)
    {references : List SymbolReference} {symbols : List Symbol}
    (resolved : references.mapM session.grammar.resolve = .ok symbols)
    (known : ∀ symbol ∈ symbols, symbol.isNonterminal = true →
      symbol ∈ session.grammar.nonTerminals) (memoize : Bool) :
    (session.sequence references memoize).1 =
      .ok (firstOfSequence (session.grammar.firstSets session.strategy) symbols) := by
  unfold Session.sequence
  rw [resolved]
  dsimp only
  split
  · rename_i set found
    exact congrArg Except.ok (coherent.cache.find? found)
  · obtain ⟨prepared, computed⟩ := coherent.prepare symbols
    have familiar : (session.prepare symbols).stranger? symbols = none := by
      apply stranger?_eq_none
      rw [prepared.grammar]
      exact known
    rw [familiar]
    exact congrArg Except.ok computed

theorem Coherent.firstOf_answer (coherent : session.Coherent) {reference : SymbolReference}
    {symbol : Symbol} (resolved : session.grammar.resolve reference = .ok symbol)
    (known : symbol.isNonterminal = true → symbol ∈ session.grammar.nonTerminals) :
    (session.firstOf reference).1 =
      .ok ((session.grammar.firstSets session.strategy).firstOf symbol) := by
  obtain ⟨continues, computed⟩ := coherent.withFirst
  unfold Session.firstOf
  rw [resolved]
  by_cases kind : symbol.isNonterminal = true
  · simp [kind, continues.grammar, known kind, computed, firstOf_nonterminal kind]
  · simp [kind, Assignment.firstOf]

theorem Coherent.followOf_answer (coherent : session.Coherent) {reference : SymbolReference}
    {symbol : Symbol} (resolved : session.grammar.resolve reference = .ok symbol)
    (known : symbol ∈ session.grammar.nonTerminals) :
    (session.followOf reference).1 =
      .ok ((session.grammar.followAssignment session.strategy).get symbol) := by
  obtain ⟨continues, computed⟩ := coherent.withFollow
  unfold Session.followOf
  rw [resolved]
  simp [Grammar.isNonterminal_of_mem known, continues.grammar, known, computed]

/-- The FIRST sets of a session as a whole. -/
theorem Coherent.firstSets_eq (coherent : session.Coherent) :
    session.firstSets.1 = (session.grammar.nonTerminals ++ session.grammar.terminals).map
      fun symbol => (symbol, (session.grammar.firstSets session.strategy).firstOf symbol) := by
  obtain ⟨continues, computed⟩ := coherent.withFirst
  unfold Session.firstSets
  dsimp only
  rw [computed, continues.grammar]

theorem Coherent.followSets_eq (coherent : session.Coherent) :
    session.followSets.1 = session.grammar.nonTerminals.map
      fun symbol => (symbol, (session.grammar.followAssignment session.strategy).get symbol) := by
  obtain ⟨continues, computed⟩ := coherent.withFollow
  unfold Session.followSets
  dsimp only
  rw [computed, continues.grammar]

theorem Coherent.mem_followSets (coherent : session.Coherent) {symbol : Symbol}
    (known : symbol ∈ session.grammar.nonTerminals) :
    (symbol, (session.grammar.followAssignment session.strategy).get symbol) ∈
      session.followSets.1 := by
  rw [coherent.followSets_eq]
  exact List.mem_map.mpr ⟨symbol, known, rfl⟩

theorem continues_new (grammar : Grammar) (strategy : Strategy) (requests : List Request) :
    (new grammar strategy).Continues ((new grammar strategy).after requests) :=
  (coherent_new grammar strategy).after requests

end Session

namespace Grammar

/-- FIRST of some symbols, said by derivations. -/
def IsFirst (grammar : Grammar) (symbols : List Symbol) (set : SymbolSet) : Prop :=
  ∀ element, element ∈ set ↔
    (element = .epsilon ∧ grammar.Derives (withoutEpsilon symbols) []) ∨
      (element.IsLeaf ∧ ∃ rest, grammar.Derives (withoutEpsilon symbols) (element :: rest))

variable {grammar : Grammar}

theorem isFirst_firstByPasses (symbols : List Symbol) :
    grammar.IsFirst symbols (firstOfSequence grammar.firstByPasses symbols) := by
  intro element
  by_cases empty : element = .epsilon
  · subst empty
    rw [epsilon_mem_firstByPasses_iff]
    constructor
    · exact fun derived => .inl ⟨rfl, derived⟩
    · rintro (⟨_, derived⟩ | ⟨leaf, _⟩)
      · exact derived
      · exact absurd rfl leaf.2
  · rw [mem_firstByPasses_iff empty]
    constructor
    · exact .inr
    · rintro (⟨same, _⟩ | begun)
      · exact absurd same empty
      · exact begun

theorem isFirst_firstOf (symbol : Symbol) :
    grammar.IsFirst [symbol] (grammar.firstByPasses.firstOf symbol) := by
  intro element
  rw [← mem_firstOfSequence_singleton]
  exact isFirst_firstByPasses [symbol] element

end Grammar

namespace Session

/-- FIRST is exact, whatever was asked before and whether or not the answer is remembered: for
sequences of symbols of which every non-terminal has productions, and for single symbols. -/
theorem first_answers_exact (grammar : Grammar) (requests : List Request) :
    let session := (new grammar .fixedPoint).after requests
    (∀ (references : List SymbolReference) (symbols : List Symbol) (memoize : Bool),
        references.mapM grammar.resolve = .ok symbols →
        (∀ symbol ∈ symbols, symbol.isNonterminal = true → symbol ∈ grammar.nonTerminals) →
        ∃ set, (session.sequence references memoize).1 = .ok set ∧ grammar.IsFirst symbols set) ∧
      ∀ (reference : SymbolReference) (symbol : Symbol),
        grammar.resolve reference = .ok symbol →
        (symbol.isNonterminal = true → symbol ∈ grammar.nonTerminals) →
        ∃ set, (session.firstOf reference).1 = .ok set ∧ grammar.IsFirst [symbol] set := by
  intro session
  have continues := continues_new grammar .fixedPoint requests
  have same : session.grammar = grammar := continues.grammar
  have sets : session.grammar.firstSets session.strategy = grammar.firstByPasses := by
    rw [show session.strategy = .fixedPoint from continues.strategy, same]
    rfl
  constructor
  · intro references symbols memoize resolved known
    rw [← same] at resolved known
    refine ⟨_, continues.coherent.sequence_answer resolved known memoize, ?_⟩
    rw [sets]
    exact Grammar.isFirst_firstByPasses symbols
  · intro reference symbol resolved known
    rw [← same] at resolved known
    refine ⟨_, continues.coherent.firstOf_answer resolved known, ?_⟩
    rw [sets]
    exact Grammar.isFirst_firstOf symbol

end Session

/-- A grammar with left recursion, the empty string inside a right-hand side, an empty right-hand
side and a symbol that derives no string of terminals. -/
def recursiveSample : Grammar where
  productions :=
    [⟨1, .nonterminal "S", [.nonterminal "S", .epsilon, .terminal "a"]⟩,
     ⟨2, .nonterminal "S", [.nonterminal "A", .nonterminal "U"]⟩,
     ⟨3, .nonterminal "A", []⟩,
     ⟨4, .nonterminal "U", [.nonterminal "U"]⟩,
     ⟨5, .nonterminal "S", []⟩]
  start := .nonterminal "S"
  sound := by decide

namespace Session

theorem first_answers_exact_recursiveSample :
    let session := (new recursiveSample .fixedPoint).after
      [.sequence [.named "A", .exact .endOfInput] true, .followOf (.named "a"), .table]
    (∃ set, (session.sequence [.named "S", .exact .endOfInput] true).1 = .ok set ∧
        recursiveSample.IsFirst [.nonterminal "S", .endOfInput] set) ∧
      ∃ set, (session.firstOf (.named "S")).1 = .ok set ∧
        recursiveSample.IsFirst [.nonterminal "S"] set := by
  have exact := first_answers_exact recursiveSample
    [.sequence [.named "A", .exact .endOfInput] true, .followOf (.named "a"), .table]
  exact ⟨exact.1 [.named "S", .exact .endOfInput] [.nonterminal "S", .endOfInput] true
      (by decide) (by decide),
    exact.2 (.named "S") (.nonterminal "S") (by decide) (by decide)⟩

/-- FOLLOW of a non-terminal is exact, whatever was asked before: a leaf is in it if and only if it
stands behind the non-terminal in what some non-terminal derives, the end of input if and only if
the start symbol derives a string that ends with the non-terminal, and nothing else is. -/
theorem follow_answers_exact (grammar : Grammar) (requests : List Request)
    (reference : SymbolReference) (symbol : Symbol)
    (resolved : grammar.resolve reference = .ok symbol) (known : symbol ∈ grammar.nonTerminals) :
    let session := (new grammar .fixedPoint).after requests
    ∃ set, (session.followOf reference).1 = .ok set ∧ (symbol, set) ∈ session.followSets.1 ∧
      (∀ element, element ≠ .endOfInput → element.isNonterminal = false →
        (element ∈ set ↔ ∃ owner ∈ grammar.nonTerminals, ∃ before after,
          grammar.Derives [owner] (before ++ symbol :: element :: after))) ∧
      (.endOfInput ∈ set ↔ ∃ before, grammar.Derives [grammar.start] (before ++ [symbol])) ∧
      .epsilon ∉ set ∧ ∀ element ∈ set, element.isNonterminal = false := by
  intro session
  have continues := continues_new grammar .fixedPoint requests
  have same : session.grammar = grammar := continues.grammar
  have sets : session.grammar.followAssignment session.strategy =
      (grammar.followByPasses grammar.firstByPasses {}).follow := by
    rw [show session.strategy = .fixedPoint from continues.strategy, same]
    rfl
  have kind := Grammar.isNonterminal_of_mem known
  have exact : ∀ element,
      element ∈ (session.grammar.followAssignment session.strategy).get symbol ↔
        grammar.Trails element symbol := by
    intro element
    rw [sets]
    exact Grammar.mem_followByPasses_iff (.empty 0 0) kind
  rw [← same] at resolved known
  refine ⟨_, continues.coherent.followOf_answer resolved known,
    continues.coherent.mem_followSets known, ?_, ?_, ?_, ?_⟩
  · intro element other leaf
    rw [exact]
    constructor
    · rintro (⟨ending, _⟩ | ⟨_, _, behind⟩)
      · exact absurd ending other
      · exact behind
    · rintro ⟨owner, declared, before, after, derived⟩
      have ownerKind := Grammar.isNonterminal_of_mem declared
      -- no form that is derived from a non-terminal has the empty string written in it
      have visible : .epsilon ∉ before ++ symbol :: element :: after :=
        derived.visible (by simpa using (Symbol.ne_epsilon_of_isNonterminal ownerKind).symm)
      have written : element ≠ .epsilon := fun empty => visible (by simp [empty])
      exact .inr ⟨other, ⟨leaf, written⟩, owner, declared, before, after, derived⟩
  · rw [exact]
    constructor
    · rintro (⟨_, ends⟩ | ⟨other, _⟩)
      · exact ends
      · exact absurd rfl other
    · exact fun ends => .inl ⟨rfl, ends⟩
  · rw [exact]
    rintro (⟨ending, _⟩ | ⟨_, leaf, _⟩)
    · exact absurd ending (by decide)
    · exact leaf.2 rfl
  · intro element member
    rcases (exact element).mp member with ⟨rfl, _⟩ | ⟨_, leaf, _⟩
    · rfl
    · exact leaf.1

theorem follow_answers_exact_recursiveSample :
    let session := (new recursiveSample .fixedPoint).after [.table]
    ∃ set, (session.followOf (.named "A")).1 = .ok set ∧
      (Symbol.nonterminal "A", set) ∈ session.followSets.1 ∧
      (∀ element, element ≠ .endOfInput → element.isNonterminal = false →
        (element ∈ set ↔ ∃ owner ∈ recursiveSample.nonTerminals, ∃ before after,
          recursiveSample.Derives [owner] (before ++ .nonterminal "A" :: element :: after))) ∧
      (.endOfInput ∈ set ↔ ∃ before,
        recursiveSample.Derives [recursiveSample.start] (before ++ [.nonterminal "A"])) ∧
      .epsilon ∉ set ∧ ∀ element ∈ set, element.isNonterminal = false :=
  follow_answers_exact recursiveSample [.table] (.named "A") (.nonterminal "A") (by decide)
    (by decide)

end Session

/-- Two non-terminals side by side. -/
def pairSample : Grammar where
  productions :=
    [⟨1, .nonterminal "S", [.nonterminal "A", .nonterminal "B"]⟩,
     ⟨2, .nonterminal "A", [.terminal "a"]⟩,
     ⟨3, .nonterminal "B", [.terminal "b"]⟩]
  start := .nonterminal "S"
  sound := by decide

namespace Session

/-- A non-terminal that stands behind another in what is derived is not in its FOLLOW set. -/
theorem follow_omits_nonterminals :
    ¬ ∀ (grammar : Grammar) (symbol : Symbol) (set : SymbolSet), symbol ∈ grammar.nonTerminals →
      ((new grammar .fixedPoint).followOf (.exact symbol)).1 = .ok set →
      ∀ element, element ≠ .endOfInput →
        (element ∈ set ↔ ∃ owner ∈ grammar.nonTerminals, ∃ before after,
          grammar.Derives [owner] (before ++ symbol :: element :: after)) := by
  intro claimed
  have answered := claimed pairSample (.nonterminal "A") (.singleton (.terminal "b")) (by decide)
    rfl (.nonterminal "B") (by decide)
  have declared : ⟨1, .nonterminal "S", [.nonterminal "A", .nonterminal "B"]⟩ ∈
      pairSample.productions := by decide
  have derived : pairSample.Derives [.nonterminal "S"]
      ([] ++ .nonterminal "A" :: .nonterminal "B" :: []) := .of_production declared
  have inside := answered.mpr ⟨.nonterminal "S", by decide, [], [], derived⟩
  exact absurd inside (by decide)

end Session

end Predictive
