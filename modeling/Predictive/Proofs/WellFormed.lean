import Predictive.Grammar.Rules
import Mathlib.Data.List.Nodup

/-! What the checks promise of a grammar in which they find no defect: left-hand sides are
non-terminals with identities of their own, right-hand sides mention no end of input and only
non-terminals that have productions, and so has the start symbol. -/

set_option autoImplicit false

namespace Predictive

theorem lhsDefect?_eq_none {used : List Int} {productions : List Production}
    (clean : lhsDefect? used productions = none) :
    (∀ production ∈ productions, production.lhs.isNonterminal = true) ∧
      (productions.map Production.id).Nodup ∧
        ∀ production ∈ productions, production.id ∉ used := by
  induction productions generalizing used with
  | nil => simp
  | cons first rest ih =>
    unfold lhsDefect? at clean
    split at clean
    · cases clean
    · split at clean
      · cases clean
      · rename_i kind fresh
        obtain ⟨kinds, distinct, unused⟩ := ih clean
        have later : ∀ production ∈ rest, production.id ≠ first.id ∧ production.id ∉ used := by
          intro production member
          simpa using unused production member
        refine ⟨?_, ?_, ?_⟩
        · intro production member
          rcases List.mem_cons.mp member with rfl | member
          · simpa using kind
          · exact kinds production member
        · rw [List.map_cons, List.nodup_cons]
          refine ⟨?_, distinct⟩
          intro repeated
          obtain ⟨production, member, same⟩ := List.mem_map.mp repeated
          exact (later production member).1 same
        · intro production member
          rcases List.mem_cons.mp member with rfl | member
          · exact fresh
          · exact (later production member).2

theorem rhsDefect?_eq_none {defined : List Symbol} {production : Production}
    (clean : rhsDefect? defined production = none) {symbol : Symbol}
    (member : symbol ∈ production.rhs) :
    symbol.kind ≠ .endOfInput ∧ (symbol.isNonterminal = true → symbol ∈ defined) := by
  have passed := List.findSome?_eq_none_iff.mp clean symbol member
  by_cases ending : symbol.kind = .endOfInput
  · simp [ending] at passed
  · refine ⟨ending, ?_⟩
    intro kind
    simpa [ending, kind] using passed

namespace Grammar

variable (grammar : Grammar)

/-- The checks one by one, in the order in which they are made. -/
theorem checks :
    grammar.productions ≠ [] ∧
      lhsDefect? [] grammar.productions = none ∧
      (∀ production ∈ grammar.productions,
        rhsDefect? grammar.nonTerminals production = none) ∧
      grammar.start ∈ grammar.nonTerminals ∧
      nameDefect? grammar.nonTerminals grammar.terminals = none := by
  have sound := grammar.sound
  unfold defect? at sound
  simp only [List.isEmpty_iff, Option.orElse_eq_orElse, Option.orElse_eq_or] at sound
  split at sound
  · cases sound
  · rename_i some
    simp only [Option.or_eq_none_iff, List.findSome?_eq_none_iff, List.contains_eq_mem,
      decide_eq_true_eq] at sound
    obtain ⟨left, right, start, names⟩ := sound
    refine ⟨some, left, right, ?_, names⟩
    by_contra missing
    exact absurd start (by rw [if_neg (show grammar.start ∉ lhsSymbols _ from missing)]; simp)

theorem start_mem : grammar.start ∈ grammar.nonTerminals :=
  grammar.checks.2.2.2.1

theorem ids_nodup : (grammar.productions.map Production.id).Nodup :=
  (lhsDefect?_eq_none grammar.checks.2.1).2.1

variable {grammar}

theorem mem_nonTerminals {symbol : Symbol} :
    symbol ∈ grammar.nonTerminals ↔ ∃ production ∈ grammar.productions, production.lhs = symbol := by
  simp [nonTerminals, lhsSymbols]

theorem lhs_mem_nonTerminals {production : Production}
    (declared : production ∈ grammar.productions) : production.lhs ∈ grammar.nonTerminals :=
  mem_nonTerminals.mpr ⟨production, declared, rfl⟩

theorem isNonterminal_lhs {production : Production} (declared : production ∈ grammar.productions) :
    production.lhs.isNonterminal = true :=
  (lhsDefect?_eq_none grammar.checks.2.1).1 production declared

theorem isNonterminal_of_mem {symbol : Symbol} (member : symbol ∈ grammar.nonTerminals) :
    symbol.isNonterminal = true := by
  obtain ⟨production, declared, rfl⟩ := mem_nonTerminals.mp member
  exact isNonterminal_lhs declared

theorem kind_ne_endOfInput {production : Production} (declared : production ∈ grammar.productions)
    {symbol : Symbol} (member : symbol ∈ production.rhs) : symbol.kind ≠ .endOfInput :=
  (rhsDefect?_eq_none (grammar.checks.2.2.1 production declared) member).1

theorem mem_nonTerminals_of_rhs {production : Production}
    (declared : production ∈ grammar.productions) {symbol : Symbol}
    (member : symbol ∈ production.rhs) (kind : symbol.isNonterminal = true) :
    symbol ∈ grammar.nonTerminals :=
  (rhsDefect?_eq_none (grammar.checks.2.2.1 production declared) member).2 kind

/-- An identity names one production. -/
theorem eq_of_id_eq {left right : Production} (first : left ∈ grammar.productions)
    (second : right ∈ grammar.productions) (same : left.id = right.id) : left = right :=
  List.inj_on_of_nodup_map grammar.ids_nodup first second same

theorem production?_eq_some {production : Production} {id : Int} :
    grammar.production? id = some production ↔
      production ∈ grammar.productions ∧ production.id = id := by
  constructor
  · intro found
    exact ⟨List.mem_of_find?_eq_some found, by simpa using List.find?_some found⟩
  · rintro ⟨declared, rfl⟩
    cases found : grammar.production? production.id with
    | none =>
      have absent := List.find?_eq_none.mp found production declared
      simp at absent
    | some other =>
      have same : other.id = production.id := by simpa using List.find?_some found
      rw [eq_of_id_eq (List.mem_of_find?_eq_some found) declared same]

end Grammar

/-! ### Productions that are refused -/

/-- What is wrong with productions and a start symbol that make no grammar. -/
inductive Malformed (productions : List Production) (start : Symbol) : Prop where
  | none (empty : productions = [])
  | lhs {production : Production} (listed : production ∈ productions)
      (kind : production.lhs.kind ≠ .nonterminal)
  | id (repeated : ¬ (productions.map Production.id).Nodup)
  | reserved {production : Production} (listed : production ∈ productions) {symbol : Symbol}
      (written : symbol ∈ production.rhs) (kind : symbol.kind = .endOfInput)
  | undefined {production : Production} (listed : production ∈ productions) {symbol : Symbol}
      (written : symbol ∈ production.rhs) (kind : symbol.kind = .nonterminal)
      (unruled : symbol ∉ productions.map Production.lhs)
  | start (unruled : start ∉ productions.map Production.lhs)
  | name {ruled other : Production} (listed : ruled ∈ productions)
      (ruledKind : ruled.lhs.kind = .nonterminal) (mentioned : other ∈ productions)
      {terminal : Symbol} (written : terminal ∈ other.rhs) (kind : terminal.kind = .terminal)
      (same : ruled.lhs.name = terminal.name)

theorem lhsDefect?_of_distinct {used : List Int} {productions : List Production}
    (kinds : ∀ production ∈ productions, production.lhs.isNonterminal = true)
    (distinct : (productions.map Production.id).Nodup)
    (fresh : ∀ production ∈ productions, production.id ∉ used) :
    lhsDefect? used productions = none := by
  induction productions generalizing used with
  | nil => rfl
  | cons first rest ih =>
    obtain ⟨new, later⟩ := List.nodup_cons.mp distinct
    unfold lhsDefect?
    rw [kinds first (List.mem_cons_self ..), if_neg (by decide),
      if_neg (fresh first (List.mem_cons_self ..))]
    refine ih (fun production member => kinds production (List.mem_cons_of_mem _ member)) later ?_
    intro production member
    rw [List.mem_cons, not_or]
    refine ⟨?_, fresh production (List.mem_cons_of_mem _ member)⟩
    intro same
    exact new (List.mem_map.mpr ⟨production, member, same⟩)

namespace Grammar

theorem mem_nonTerminals_iff {grammar : Grammar} {symbol : Symbol} :
    symbol ∈ grammar.nonTerminals ↔ symbol ∈ grammar.productions.map Production.lhs := by
  rw [nonTerminals, lhsSymbols, List.mem_eraseDups]

theorem mem_terminals_iff {grammar : Grammar} {symbol : Symbol} :
    symbol ∈ grammar.terminals ↔
      symbol ∈ (grammar.productions.flatMap Production.rhs).filter Symbol.isTerminal := by
  rw [terminals, rhsTerminals, List.mem_eraseDups]

theorem not_malformed (grammar : Grammar) : ¬ Malformed grammar.productions grammar.start := by
  intro malformed
  cases malformed with
  | none empty => exact grammar.checks.1 empty
  | lhs listed kind => exact kind (by simpa [Symbol.isNonterminal] using isNonterminal_lhs listed)
  | id repeated => exact repeated grammar.ids_nodup
  | reserved listed written kind => exact kind_ne_endOfInput listed written kind
  | undefined listed written kind unruled =>
    exact unruled (mem_nonTerminals_iff.mp
      (mem_nonTerminals_of_rhs listed written (by simp [Symbol.isNonterminal, kind])))
  | start unruled => exact unruled (mem_nonTerminals_iff.mp grammar.start_mem)
  | @name ruled other listed ruledKind mentioned terminal written kind same =>
    have clean : nameDefect? grammar.nonTerminals grammar.terminals = .none :=
      grammar.checks.2.2.2.2
    have member : terminal ∈ grammar.terminals := by
      rw [mem_terminals_iff]
      exact List.mem_filter.mpr ⟨List.mem_flatMap.mpr ⟨other, mentioned, written⟩,
        by simp [Symbol.isTerminal, kind]⟩
    have known := lhs_mem_nonTerminals listed
    rw [Symbol.eq_nonterminal (isNonterminal_lhs listed), same] at known
    exact List.find?_eq_none.mp (Option.map_eq_none_iff.mp clean) terminal member
      (List.contains_iff_mem.mpr known)

/-- Productions in which nothing is wrong pass every check. -/
theorem defect?_eq_none {productions : List Production} {start : Symbol}
    (fit : ¬ Malformed productions start) : defect? productions start = none := by
  have kinds : ∀ production ∈ productions, production.lhs.isNonterminal = true := by
    intro production listed
    by_contra kind
    exact fit (.lhs listed (by simpa [Symbol.isNonterminal] using kind))
  have left : lhsDefect? [] productions = none := by
    refine lhsDefect?_of_distinct kinds ?_ (by simp)
    by_contra repeated
    exact fit (.id repeated)
  have right : productions.findSome? (rhsDefect? (lhsSymbols productions)) = none := by
    refine List.findSome?_eq_none_iff.mpr fun production listed => ?_
    refine List.findSome?_eq_none_iff.mpr fun symbol written => ?_
    rw [if_neg fun ending => fit (.reserved listed written ending), if_neg]
    intro undefined
    obtain ⟨kind, unruled⟩ := Bool.and_eq_true_iff.mp undefined
    refine fit (.undefined listed written (by simpa [Symbol.isNonterminal] using kind) ?_)
    simpa [lhsSymbols] using unruled
  have ruled : (lhsSymbols productions).contains start = true := by
    rw [List.contains_iff_mem, lhsSymbols, List.mem_eraseDups]
    by_contra unruled
    exact fit (.start unruled)
  have names : nameDefect? (lhsSymbols productions) (rhsTerminals productions) = none := by
    refine Option.map_eq_none_iff.mpr (List.find?_eq_none.mpr fun terminal member clash => ?_)
    rw [rhsTerminals, List.mem_eraseDups] at member
    obtain ⟨mentioned, kind⟩ := List.mem_filter.mp member
    obtain ⟨other, mentioned, written⟩ := List.mem_flatMap.mp mentioned
    rw [List.contains_iff_mem, lhsSymbols, List.mem_eraseDups] at clash
    obtain ⟨production, listed, same⟩ := List.mem_map.mp clash
    refine fit (.name listed ?_ mentioned written (by simpa [Symbol.isTerminal] using kind) ?_)
    · rw [same]
      rfl
    · rw [same]
      rfl
  unfold defect?
  rw [if_neg fun empty => fit (.none (List.isEmpty_iff.mp empty))]
  dsimp only
  rw [left, right, if_pos ruled, names]
  rfl

end Grammar

/-! ### Grammars from rules -/

/-- A sequence of two steps succeeds if both do. -/
theorem Rule.rhs_of_productions {policy : NamePolicy} {lhsNames : List String} {id : Int}
    {rules : List Rule} {productions : List Production}
    (read : Rule.productions policy lhsNames id rules = .ok productions) :
    ∀ production ∈ productions, ∃ symbols, production.rhs = normalizeRhs symbols := by
  induction rules generalizing id productions with
  | nil =>
    cases read
    simp
  | cons rule rest ih =>
    obtain ⟨symbols, _, read⟩ := exists_of_bind_eq_ok read
    obtain ⟨others, later, read⟩ := exists_of_bind_eq_ok read
    cases read
    exact List.forall_mem_cons.mpr ⟨⟨symbols, rfl⟩, ih later⟩

/-- The right-hand sides of a grammar from rules are in normal form. -/
theorem Grammar.rhs_of_ofRules {rules : List Rule} {start : Option String} {policy : NamePolicy}
    {grammar : Grammar} (built : Grammar.ofRules rules start policy = .ok grammar) :
    ∀ production ∈ grammar.productions, ∃ symbols, production.rhs = normalizeRhs symbols := by
  unfold Grammar.ofRules at built
  split at built
  · cases built
  · dsimp only at built
    split at built
    · cases built
    · split at built
      · cases built
      · obtain ⟨productions, read, built⟩ := exists_of_bind_eq_ok built
        split at built
        · rw [(eq_of_ofProductions built).1]
          exact Rule.rhs_of_productions read
        · cases built

theorem Grammar.rhs_ne_nil_of_ofRules {rules : List Rule} {start : Option String}
    {policy : NamePolicy} {grammar : Grammar}
    (built : Grammar.ofRules rules start policy = .ok grammar) :
    ∀ production ∈ grammar.productions, production.rhs ≠ [] := by
  intro production declared
  obtain ⟨symbols, same⟩ := rhs_of_ofRules built production declared
  rw [same]
  exact normalizeRhs_ne_nil symbols

end Predictive
