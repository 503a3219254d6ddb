import Predictive.Proofs.Conflicts
import Predictive.Proofs.Determinism

/-! Right-hand sides and how they write the empty string. Two grammars that differ only in that have
the same derivations, so the same lookaheads predict their productions, and the cells of their
tables hold the same productions. Bringing right-hand sides into their normal form is such a change,
and it makes no grammar defective. -/

set_option autoImplicit false

namespace Predictive

namespace Production

/-- The production with its right-hand side in normal form. -/
def normalized (production : Production) : Production :=
  { production with rhs := normalizeRhs production.rhs }

/-- What a production says apart from how it writes the empty string. -/
def bare (production : Production) : Production :=
  { production with rhs := withoutEpsilon production.rhs }

@[simp] theorem id_normalized (production : Production) : production.normalized.id = production.id :=
  rfl

@[simp] theorem lhs_normalized (production : Production) :
    production.normalized.lhs = production.lhs := rfl

@[simp] theorem rhs_normalized (production : Production) :
    production.normalized.rhs = normalizeRhs production.rhs := rfl

@[simp] theorem bare_normalized (production : Production) :
    production.normalized.bare = production.bare := by
  simp [bare, normalized]

theorem bare_eq {left right : Production} :
    left.bare = right.bare ↔
      left.id = right.id ∧ left.lhs = right.lhs ∧
        withoutEpsilon left.rhs = withoutEpsilon right.rhs := by
  simp [bare]

end Production

/-! ### Grammars in normal form -/

theorem filter_isTerminal_withoutEpsilon (symbols : List Symbol) :
    (withoutEpsilon symbols).filter Symbol.isTerminal = symbols.filter Symbol.isTerminal := by
  unfold withoutEpsilon
  rw [List.filter_filter]
  refine List.filter_congr fun symbol _ => ?_
  by_cases empty : symbol = .epsilon <;> simp [empty]

theorem lhsSymbols_normalized (productions : List Production) :
    lhsSymbols (productions.map Production.normalized) = lhsSymbols productions := by
  simp [lhsSymbols, Function.comp_def]

theorem rhsTerminals_normalized (productions : List Production) :
    rhsTerminals (productions.map Production.normalized) = rhsTerminals productions := by
  unfold rhsTerminals
  congr 1
  induction productions with
  | nil => rfl
  | cons production rest ih =>
    rw [List.map_cons, List.flatMap_cons, List.flatMap_cons, List.filter_append,
      List.filter_append, ih, Production.rhs_normalized, ← filter_isTerminal_withoutEpsilon,
      withoutEpsilon_normalizeRhs, filter_isTerminal_withoutEpsilon]

theorem lhsDefect?_normalized (used : List Int) (productions : List Production) :
    lhsDefect? used (productions.map Production.normalized) = lhsDefect? used productions := by
  induction productions generalizing used with
  | nil => rfl
  | cons production rest ih => simp [lhsDefect?, ih]

theorem rhsDefect?_normalized {defined : List Symbol} {production : Production}
    (clean : rhsDefect? defined production = none) :
    rhsDefect? defined production.normalized = none := by
  refine List.findSome?_eq_none_iff.mpr fun symbol member => ?_
  rcases mem_normalizeRhs member with written | rfl
  · obtain ⟨other, known⟩ := rhsDefect?_eq_none clean written
    by_cases kind : symbol.isNonterminal = true
    · simp [other, kind, known kind]
    · simp [other, kind]
  · simp [Symbol.epsilon, Symbol.isNonterminal]

namespace Grammar

/-- The grammar with all right-hand sides in normal form. -/
def normalized (grammar : Grammar) : Grammar where
  productions := grammar.productions.map Production.normalized
  start := grammar.start
  sound := by
    obtain ⟨some, left, right, start, names⟩ := grammar.checks
    unfold defect?
    rw [lhsSymbols_normalized, rhsTerminals_normalized, lhsDefect?_normalized]
    have rights : (grammar.productions.map Production.normalized).findSome?
        (rhsDefect? (lhsSymbols grammar.productions)) = none := by
      refine List.findSome?_eq_none_iff.mpr fun production member => ?_
      obtain ⟨written, declared, rfl⟩ := List.mem_map.mp member
      exact rhsDefect?_normalized (right written declared)
    change grammar.start ∈ lhsSymbols grammar.productions at start
    change nameDefect? (lhsSymbols grammar.productions) (rhsTerminals grammar.productions) = none
      at names
    simp [some, left, rights, start, names]

theorem ofProductions_normalized {productions : List Production} {start : Symbol}
    {grammar : Grammar} (built : ofProductions productions start = .ok grammar) :
    ofProductions (productions.map Production.normalized) start = .ok grammar.normalized := by
  obtain ⟨rfl, rfl⟩ := eq_of_ofProductions built
  exact ofProductions_self grammar.normalized

theorem rhs_ne_nil_of_normalized {grammar : Grammar} {production : Production}
    (declared : production ∈ grammar.normalized.productions) : production.rhs ≠ [] := by
  obtain ⟨written, _, rfl⟩ := List.mem_map.mp declared
  exact normalizeRhs_ne_nil written.rhs

/-! ### Grammars that say the same -/

/-- Two grammars differ at most in how their right-hand sides write the empty string. -/
structure SaysAs (left right : Grammar) : Prop where
  productions : left.productions.map Production.bare = right.productions.map Production.bare
  start : left.start = right.start

theorem saysAs_normalized (grammar : Grammar) : grammar.SaysAs grammar.normalized where
  productions := by simp [normalized, Function.comp_def]
  start := rfl

namespace SaysAs

variable {left right : Grammar} (same : left.SaysAs right)
include same

theorem symm : right.SaysAs left :=
  ⟨same.productions.symm, same.start.symm⟩

theorem nonTerminals_eq : left.nonTerminals = right.nonTerminals := by
  have sides := congrArg (List.map Production.lhs) same.productions
  simp only [List.map_map] at sides
  exact congrArg List.eraseDups sides

theorem derives {form next : List Symbol} (derived : left.Derives form next) :
    right.Derives form next := by
  refine Relation.ReflTransGen.mono ?_ _ _ derived
  rintro form next ⟨production, declared, before, after, rfl, rfl⟩
  have member : production.bare ∈ right.productions.map Production.bare :=
    same.productions ▸ List.mem_map_of_mem declared
  obtain ⟨other, known, equal⟩ := List.mem_map.mp member
  obtain ⟨_, lhs, rhs⟩ := Production.bare_eq.mp equal
  exact ⟨other, known, before, after, by rw [lhs], by rw [rhs]⟩

theorem trails {element symbol : Symbol} (trails : left.Trails element symbol) :
    right.Trails element symbol := by
  rcases trails with ⟨ending, before, derived⟩ | ⟨other, leaf, owner, known, before, after, derived⟩
  · exact .inl ⟨ending, before, same.start ▸ same.derives derived⟩
  · exact .inr ⟨other, leaf, owner, same.nonTerminals_eq ▸ known, before, after,
      same.derives derived⟩

theorem predicts {production other : Production} (equal : production.bare = other.bare)
    {lookahead : Symbol} (predicts : left.Predicts production lookahead) :
    right.Predicts other lookahead := by
  obtain ⟨_, lhs, rhs⟩ := Production.bare_eq.mp equal
  rcases predicts with ⟨opens, visible⟩ | ⟨empty, behind⟩
  · obtain ⟨leaf, rest, derived⟩ := opens.derives visible
    exact .inl ⟨opens_of_derives leaf (rhs ▸ same.derives derived), visible⟩
  · exact .inr ⟨opens_epsilon_of_derives (rhs ▸ same.derives empty.derives_nil),
      lhs ▸ same.trails behind⟩

end SaysAs

end Grammar

/-- Productions that are kept alike on both sides leave the same. -/
theorem map_bare_filter {left right : List Production} {first second : Production → Bool}
    (same : left.map Production.bare = right.map Production.bare)
    (alike : ∀ production ∈ left, ∀ other ∈ right, production.bare = other.bare →
      first production = second other) :
    (left.filter first).map Production.bare = (right.filter second).map Production.bare := by
  induction left generalizing right with
  | nil =>
    obtain rfl : right = [] := by simpa using same.symm
    rfl
  | cons production rest ih =>
    cases right with
    | nil => cases same
    | cons other others =>
      obtain ⟨head, tail⟩ := List.cons.inj same
      have kept := alike production List.mem_cons_self other List.mem_cons_self head
      have remains := ih tail fun one member two known => alike one (List.mem_cons_of_mem _ member)
        two (List.mem_cons_of_mem _ known)
      rw [List.filter_cons, List.filter_cons, kept]
      split
      · rw [List.map_cons, List.map_cons, remains, head]
      · exact remains

namespace ParseTable

/-- Two tables whose cells hold the same productions, apart from how they write the empty string. -/
structure ActsAs (left right : ParseTable) : Prop where
  start : left.grammar.start = right.grammar.start
  cells : ∀ symbol lookahead,
    (left.productionAt symbol lookahead).map (Option.map Production.bare) =
      (right.productionAt symbol lookahead).map (Option.map Production.bare)

theorem ActsAs.symm {left right : ParseTable} (same : left.ActsAs right) : right.ActsAs left :=
  ⟨same.start.symm, fun symbol lookahead => (same.cells symbol lookahead).symm⟩

end ParseTable

namespace Grammar.SaysAs

variable {left right : Grammar} (same : left.SaysAs right)
include same

theorem entrants_eq (nonterminal lookahead : Symbol) :
    (left.entrants (left.firstSets .fixedPoint) (left.followAssignment .fixedPoint)
        nonterminal lookahead).map Production.bare =
      (right.entrants (right.firstSets .fixedPoint) (right.followAssignment .fixedPoint)
        nonterminal lookahead).map Production.bare := by
  refine map_bare_filter same.productions fun production declared other known equal => ?_
  have predicted : lookahead ∈ left.lookaheadsOf (left.firstSets .fixedPoint)
        (left.followAssignment .fixedPoint) production ↔
      lookahead ∈ right.lookaheadsOf (right.firstSets .fixedPoint)
        (right.followAssignment .fixedPoint) other := by
    rw [mem_lookaheadsOf_iff_predicts declared, mem_lookaheadsOf_iff_predicts known]
    exact ⟨same.predicts equal, same.symm.predicts equal.symm⟩
  simp [predicted, (Production.bare_eq.mp equal).2.1]

theorem at?_eq (nonterminal lookahead : Symbol) :
    (left.parseTable .fixedPoint).at? nonterminal lookahead =
      (right.parseTable .fixedPoint).at? nonterminal lookahead := by
  have ids := congrArg (fun productions => productions.head?.map Production.id)
    (same.entrants_eq nonterminal lookahead)
  simp only [List.head?_map, Option.map_map] at ids
  rw [at?_parseTable_eq_head?, at?_parseTable_eq_head?]
  exact ids

theorem production_eq (id : Int) :
    (left.production id).map Production.bare = (right.production id).map Production.bare := by
  have found : (left.production? id).map Production.bare =
      (right.production? id).map Production.bare := by
    have sides := congrArg (List.find? (·.id = id)) same.productions
    simp only [List.find?_map] at sides
    exact sides
  unfold production
  cases one : left.production? id <;> cases other : right.production? id <;>
    simp_all [Except.map]

/-- Grammars that say the same have tables that act the same. -/
theorem actsAs :
    (left.parseTable .fixedPoint).ActsAs (right.parseTable .fixedPoint) where
  start := same.start
  cells := by
    intro symbol lookahead
    unfold ParseTable.productionAt
    rw [same.at?_eq]
    cases (right.parseTable .fixedPoint).at? symbol lookahead with
    | none => rfl
    | some id =>
      have found := same.production_eq id
      change ((left.production id).map some).map (Option.map Production.bare) =
        ((right.production id).map some).map (Option.map Production.bare)
      cases one : left.production id <;> cases other : right.production id <;>
        simp_all [Except.map]

end Grammar.SaysAs

end Predictive
