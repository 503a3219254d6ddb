import Predictive.Proofs.RuleGrammars
import Predictive.Proofs.StartSymbols
import Mathlib.Data.List.Induction

/-! Which lists of rules make a grammar, and what grammar they make. Rules are refused for a name in
the wrong place, for a name that nothing explains, or for a start that has no rule; all others are
numbered in their order, and the names fall into those with rules and the rest. The checks of the
productions find nothing then. -/

set_option autoImplicit false

namespace Predictive

/-! ### First appearances -/

section
variable {α β : Type} [DecidableEq α] [DecidableEq β]

theorem eraseDups_concat (source : List α) (last : α) :
    (source ++ [last]).eraseDups =
      if last ∈ source then source.eraseDups else source.eraseDups ++ [last] := by
  rw [List.eraseDups_append]
  by_cases found : last ∈ source
  · simp [List.removeAll, found]
  · simp [List.removeAll, found, List.eraseDups_cons]

theorem eraseDups_of_nodup {source : List α} (distinct : source.Nodup) : source.eraseDups = source := by
  induction source using List.reverseRecOn with
  | nil => rfl
  | append_singleton source last ih =>
    obtain ⟨early, _, apart⟩ := List.nodup_append.mp distinct
    have fresh : last ∉ source := fun member => apart _ member _ List.mem_cons_self rfl
    rw [eraseDups_concat, if_neg fresh, ih early]

theorem eraseDups_map {transform : α → β} (injective : Function.Injective transform)
    (source : List α) : (source.map transform).eraseDups = source.eraseDups.map transform := by
  induction source using List.reverseRecOn with
  | nil => rfl
  | append_singleton source last ih =>
    simp only [List.map_append, List.map_singleton, eraseDups_concat, ih,
      List.mem_map_of_injective injective]
    split
    · rfl
    · rw [List.map_append, List.map_singleton]

/-- The elements of a list, each of them once, in the order of their first appearance there. -/
structure FirstAppearances (list source : List α) : Prop where
  nodup : list.Nodup
  mem : ∀ element, element ∈ list ↔ element ∈ source
  order : list.Pairwise (source.idxOf · < source.idxOf ·)

theorem firstAppearances_eraseDups (source : List α) :
    FirstAppearances source.eraseDups source := by
  have order : source.eraseDups.Pairwise (source.idxOf · < source.idxOf ·) := by
    induction source using List.reverseRecOn with
    | nil => exact .nil
    | append_singleton source last ih =>
      -- behind its end, a list changes the place of none of its elements
      have kept : source.eraseDups.Pairwise
          ((source ++ [last]).idxOf · < (source ++ [last]).idxOf ·) := by
        refine ih.imp_of_mem fun {first second} early late less => ?_
        rw [List.mem_eraseDups] at early late
        rwa [List.idxOf_append_of_mem early, List.idxOf_append_of_mem late]
      rw [eraseDups_concat]
      split
      · exact kept
      · rename_i fresh
        refine List.pairwise_append.mpr ⟨kept, List.pairwise_singleton _ _, ?_⟩
        intro first early final single
        rw [List.mem_eraseDups] at early
        rw [List.mem_singleton.mp single, List.idxOf_append_of_mem early,
          List.idxOf_append_of_notMem fresh]
        exact Nat.lt_add_right _ (List.idxOf_lt_length_of_mem early)
  refine ⟨order.imp ?_, fun _ => List.mem_eraseDups, order⟩
  rintro first second less rfl
  exact Nat.lt_irrefl _ less

end

/-! ### Rules that are refused -/

namespace Rule

/-- What is wrong with rules that make no grammar. -/
inductive Unfit (rules : List Rule) (start : Option String) (policy : NamePolicy) : Prop where
  | none (empty : rules = [])
  | reservedLeft {name : String} (used : name ∈ rules.map Rule.lhs)
      (reserved : name = Symbol.epsilon.name ∨ name = Symbol.endOfInput.name)
  | declaredLeft {declared : List String} (terminals : policy.declared = some declared)
      {name : String} (listed : name ∈ declared) (used : name ∈ rules.map Rule.lhs)
  | reservedRight {rule : Rule} (listed : rule ∈ rules)
      (written : Symbol.endOfInput.name ∈ rule.rhs)
  | unknownRight {rule : Rule} (listed : rule ∈ rules) {name : String} (written : name ∈ rule.rhs)
      (visible : name ≠ Symbol.epsilon.name) (unruled : name ∉ rules.map Rule.lhs)
      (refused : ¬ policy.MakesTerminal name)
  | start {name : String} (chosen : start.or (rules.head?.map Rule.lhs) = some name)
      (unruled : name ∉ rules.map Rule.lhs)

variable {rules : List Rule} {start : Option String} {policy : NamePolicy} {lhsNames : List String}

theorem isReservedName_iff {name : String} :
    Symbol.isReservedName name = true ↔
      name = Symbol.epsilon.name ∨ name = Symbol.endOfInput.name := by
  simp [Symbol.isReservedName]

theorem declaredWithRules_eq_nil {declared : List String} :
    declaredWithRules declared lhsNames = [] ↔ ∀ name ∈ declared, name ∉ lhsNames := by
  rw [List.eq_nil_iff_forall_not_mem]
  simp [declaredWithRules]

/-- Rules in which nothing is wrong are accepted, name by name. -/
theorem accepts_of_fit (fit : ¬ Unfit rules start policy) :
    ∀ rule ∈ rules, ∀ name ∈ rule.rhs, policy.Accepts (rules.map Rule.lhs) name := by
  intro rule listed name written
  by_cases visible : name = Symbol.epsilon.name
  · exact .inl visible
  · refine .inr ⟨?_, ?_⟩
    · rintro rfl
      exact fit (.reservedRight listed written)
    · by_contra unexplained
      obtain ⟨unruled, refused⟩ := not_or.mp unexplained
      exact fit (.unknownRight listed written visible unruled refused)

end Rule

namespace Grammar

variable {rules : List Rule} {start : Option String} {policy : NamePolicy}

/-- Rules in which something is wrong make no grammar. -/
theorem fit_of_ofRules {grammar : Grammar} (built : ofRules rules start policy = .ok grammar) :
    ¬ Rule.Unfit rules start policy := by
  cases rules with
  | nil => cases built
  | cons first rest =>
    unfold ofRules at built
    dsimp only at built
    split at built
    · cases built
    · rename_i free
      split at built
      · cases built
      · rename_i undisputed
        obtain ⟨productions, read, built⟩ := exists_of_bind_eq_ok built
        split at built
        · rename_i ruled
          have accepted := Rule.accepts_of_productions read
          intro unfit
          cases unfit with
          | none empty => cases empty
          | reservedLeft used reserved =>
            have unreserved := Rule.unreserved_of_reservedLhs? free used
            rw [Rule.isReservedName_iff.mpr reserved] at unreserved
            cases unreserved
          | declaredLeft terminals listed used =>
            rw [terminals, Option.getD_some] at undisputed
            exact Rule.declaredWithRules_eq_nil.mp undisputed _ listed used
          | reservedRight listed written =>
            rcases accepted _ listed _ written with empty | ⟨other, _⟩
            · exact absurd empty (by decide)
            · exact other rfl
          | unknownRight listed written visible unruled refused =>
            rcases accepted _ listed _ written with empty | ⟨_, known | terminal⟩
            · exact visible empty
            · exact unruled known
            · exact refused terminal
          | @start name chosen unruled =>
            have same : start.getD first.lhs = name := by simpa using chosen
            rw [same, List.contains_iff_mem] at ruled
            exact unruled ruled
        · cases built

/-- Rules in which nothing is wrong make the grammar of their numbered productions. -/
theorem ofRules_of_fit (fit : ¬ Rule.Unfit rules start policy) :
    ∃ grammar, ofRules rules start policy = .ok grammar ∧
      grammar.productions = Rule.numbered (rules.map Rule.lhs) 1 rules ∧
      (start.or (rules.head?.map Rule.lhs)).map Symbol.nonterminal = some grammar.start := by
  cases rules with
  | nil => exact absurd (.none rfl) fit
  | cons first rest =>
    have free : Rule.reservedLhs? ((first :: rest).map Rule.lhs) = none := by
      refine Rule.reservedLhs?_eq_none fun name used => ?_
      by_contra reserved
      exact fit (.reservedLeft used (Rule.isReservedName_iff.mp (by simpa using reserved)))
    have undisputed : Rule.declaredWithRules (policy.declared.getD [])
        ((first :: rest).map Rule.lhs) = [] := by
      refine Rule.declaredWithRules_eq_nil.mpr fun name listed used => ?_
      cases declared : policy.declared with
      | none => simp [declared] at listed
      | some names => exact fit (.declaredLeft declared (by simpa [declared] using listed) used)
    have ruled : start.getD first.lhs ∈ (first :: rest).map Rule.lhs := by
      by_contra unruled
      exact fit (.start (by simp) unruled)
    let grammar : Grammar :=
      ⟨Rule.numbered ((first :: rest).map Rule.lhs) 1 (first :: rest),
        .nonterminal (start.getD first.lhs), Rule.defect?_numbered ruled⟩
    refine ⟨grammar, ?_, rfl, by simp [grammar]⟩
    unfold ofRules
    simp only [free, undisputed, Rule.productions_eq_ok (Rule.accepts_of_fit fit)]
    change (if ((first :: rest).map Rule.lhs).contains (start.getD first.lhs) = true then _ else _) = _
    rw [if_pos (List.contains_iff_mem.mpr ruled)]
    exact ofProductions_self grammar

end Grammar

/-! ### What the rules make -/

namespace Rule

variable {lhsNames : List String} {rules : List Rule}

/-- The right-hand side that some names stand for: the empty string is left out where anything else
is written, and a name is a non-terminal if it has rules. -/
def rightSide (lhsNames names : List String) : List Symbol :=
  match names.filter (· ≠ Symbol.epsilon.name) with
  | [] => [.epsilon]
  | visible => visible.map fun name =>
    if name ∈ lhsNames then .nonterminal name else .terminal name

theorem symbol_eq_epsilon {name : String} :
    symbol lhsNames name = .epsilon ↔ name = Symbol.epsilon.name := by
  constructor
  · intro same
    rw [← name_symbol lhsNames name, same]
  · rintro rfl
    simp [symbol]

theorem symbol_of_ne {name : String} (visible : name ≠ Symbol.epsilon.name) :
    symbol lhsNames name = if name ∈ lhsNames then .nonterminal name else .terminal name := by
  simp [symbol, visible]

theorem normalizeRhs_map_symbol (names : List String) :
    normalizeRhs (names.map (symbol lhsNames)) = rightSide lhsNames names := by
  have kept : (names.map (symbol lhsNames)).filter (· ≠ Symbol.epsilon) =
      (names.filter (· ≠ Symbol.epsilon.name)).map fun name =>
        if name ∈ lhsNames then .nonterminal name else .terminal name := by
    rw [List.filter_map]
    have same : ((fun symbol : Symbol => decide (symbol ≠ .epsilon)) ∘ symbol lhsNames) =
        fun name => decide (name ≠ Symbol.epsilon.name) := by
      funext name
      simp [symbol_eq_epsilon]
    rw [same]
    refine List.map_congr_left fun name member => symbol_of_ne ?_
    simpa using (List.mem_filter.mp member).2
  unfold normalizeRhs rightSide
  dsimp only
  rw [kept]
  cases names.filter (· ≠ Symbol.epsilon.name) with
  | nil => rfl
  | cons first rest => simp

theorem numbered_eq_mapIdx (lhsNames : List String) (id : Int) (rules : List Rule) :
    numbered lhsNames id rules = rules.mapIdx fun index rule =>
      ⟨id + index, .nonterminal rule.lhs, rightSide lhsNames rule.rhs⟩ := by
  induction rules generalizing id with
  | nil => rfl
  | cons rule rest ih =>
    rw [numbered, List.mapIdx_cons, ih, normalizeRhs_map_symbol]
    simp [Int.add_assoc, Int.add_comm 1]

/-- The names that some rules use without giving rules for them, as often as they use them. -/
def unruledNames (rules : List Rule) : List String :=
  (rules.flatMap Rule.rhs).filter fun name =>
    name ≠ Symbol.epsilon.name && name ∉ rules.map Rule.lhs

theorem filter_isTerminal_rightSide (names : List String) :
    (rightSide lhsNames names).filter Symbol.isTerminal =
      (names.filter fun name => name ≠ Symbol.epsilon.name && name ∉ lhsNames).map
        Symbol.terminal := by
  have kept (visible : List String) :
      (visible.map fun name =>
          if name ∈ lhsNames then Symbol.nonterminal name else .terminal name).filter
        Symbol.isTerminal =
      (visible.filter (· ∉ lhsNames)).map Symbol.terminal := by
    induction visible with
    | nil => rfl
    | cons name rest ih =>
      rw [List.map_cons, List.filter_cons, List.filter_cons, ih]
      by_cases known : name ∈ lhsNames
      · simp [known, Symbol.isTerminal, Symbol.nonterminal]
      · simp [known]
  have twice : (names.filter fun name => name ≠ Symbol.epsilon.name && name ∉ lhsNames) =
      (names.filter (· ≠ Symbol.epsilon.name)).filter (· ∉ lhsNames) := by
    rw [List.filter_filter]
    simp only [Bool.and_comm]
  rw [twice, ← kept]
  unfold rightSide
  cases names.filter (· ≠ Symbol.epsilon.name) with
  | nil => rfl
  | cons first rest => rfl

theorem rhsTerminals_numbered (id : Int) (rules : List Rule) :
    ((numbered lhsNames id rules).flatMap Production.rhs).filter Symbol.isTerminal =
      ((rules.flatMap Rule.rhs).filter fun name =>
        name ≠ Symbol.epsilon.name && name ∉ lhsNames).map Symbol.terminal := by
  induction rules generalizing id with
  | nil => rfl
  | cons rule rest ih =>
    simp only [numbered, List.flatMap_cons, List.filter_append, List.map_append, ih,
      normalizeRhs_map_symbol, filter_isTerminal_rightSide]

end Rule

namespace Grammar

variable {grammar : Grammar} {rules : List Rule}

/-- A grammar that is what some rules say. -/
structure Spells (grammar : Grammar) (rules : List Rule) : Prop where
  productions : grammar.productions = rules.mapIdx fun index rule =>
    ⟨1 + index, .nonterminal rule.lhs, Rule.rightSide (rules.map Rule.lhs) rule.rhs⟩
  kinds : ∀ name, grammar.find? name = some (.nonterminal name) ↔ name ∈ rules.map Rule.lhs
  nonTerminals : ∃ names, grammar.nonTerminals = names.map Symbol.nonterminal ∧
    FirstAppearances names (rules.map Rule.lhs)
  terminals : ∃ names, grammar.terminals = names.map Symbol.terminal ∧
    FirstAppearances names (Rule.unruledNames rules)

theorem nonterminal_injective : Function.Injective Symbol.nonterminal :=
  fun _ _ same => congrArg Symbol.name same

theorem terminal_injective : Function.Injective Symbol.terminal :=
  fun _ _ same => congrArg Symbol.name same

theorem mem_nonTerminals_of_find? {name : String}
    (found : grammar.find? name = some (.nonterminal name)) :
    .nonterminal name ∈ grammar.nonTerminals := by
  unfold find? at found
  split at found
  · cases found
  · split at found
    · cases found
    · rcases List.mem_append.mp (List.mem_of_find?_eq_some found) with ruled | terminal
      · exact ruled
      · have kind : (Symbol.nonterminal name).isTerminal = true := by
          rw [terminals, rhsTerminals, List.mem_eraseDups] at terminal
          exact (List.mem_filter.mp terminal).2
        cases kind

theorem spells_of_numbered
    (free : ∀ name ∈ rules.map Rule.lhs, Symbol.isReservedName name = false)
    (productions : grammar.productions = Rule.numbered (rules.map Rule.lhs) 1 rules) :
    grammar.Spells rules where
  productions := by rw [productions, Rule.numbered_eq_mapIdx]
  kinds := by
    intro name
    have listed : .nonterminal name ∈ grammar.nonTerminals ↔ name ∈ rules.map Rule.lhs := by
      rw [nonTerminals, productions]
      exact Rule.mem_lhsSymbols_numbered
    constructor
    · exact fun found => listed.mp (mem_nonTerminals_of_find? found)
    · exact fun ruled => find?_nonterminal (listed.mpr ruled) (free name ruled)
  nonTerminals := by
    refine ⟨(rules.map Rule.lhs).eraseDups, ?_, firstAppearances_eraseDups _⟩
    rw [← eraseDups_map nonterminal_injective, nonTerminals, lhsSymbols, productions,
      Rule.map_lhs_numbered, List.map_map]
    rfl
  terminals := by
    refine ⟨(Rule.unruledNames rules).eraseDups, ?_, firstAppearances_eraseDups _⟩
    rw [← eraseDups_map terminal_injective, terminals, rhsTerminals, productions,
      Rule.rhsTerminals_numbered]
    rfl

/-- Rules make no grammar if and only if something is wrong with them; all others make the grammar
that they spell. Once they are read, no check of the productions fails. -/
theorem ofRules_decides (rules : List Rule) (start : Option String) (policy : NamePolicy) :
    ((∃ cause, ofRules rules start policy = .error cause) ↔ Rule.Unfit rules start policy) ∧
      (¬ Rule.Unfit rules start policy →
        ∃ grammar, ofRules rules start policy = .ok grammar ∧ grammar.Spells rules ∧
          (start.or (rules.head?.map Rule.lhs)).map Symbol.nonterminal = some grammar.start) ∧
      ∀ productions, Rule.productions policy (rules.map Rule.lhs) 1 rules = .ok productions →
        ∀ name ∈ rules.map Rule.lhs, defect? productions (.nonterminal name) = none := by
  refine ⟨⟨?refused, ?unfit⟩, ?spelled, ?passed⟩
  case refused =>
    rintro ⟨cause, refused⟩
    by_contra fit
    obtain ⟨grammar, built, -, -⟩ := ofRules_of_fit fit
    rw [built] at refused
    cases refused
  case unfit =>
    intro unfit
    cases built : ofRules rules start policy with
    | error cause => exact ⟨cause, rfl⟩
    | ok grammar => exact absurd unfit (fit_of_ofRules built)
  case spelled =>
    intro fit
    obtain ⟨grammar, built, productions, begun⟩ := ofRules_of_fit fit
    refine ⟨grammar, built, spells_of_numbered (fun name used => ?_) productions, begun⟩
    by_contra reserved
    exact fit (.reservedLeft used (Rule.isReservedName_iff.mp (by simpa using reserved)))
  case passed =>
    intro productions read name ruled
    rw [Rule.eq_numbered_of_productions read]
    exact Rule.defect?_numbered ruled

/-- Rules with a repeated name, with empty strings among others and alone, and with a declared
terminal that is never used. -/
def listedRules : List Rule :=
  [⟨"S", ["a", "ε", "B", "a"]⟩, ⟨"B", ["ε", "ε"]⟩, ⟨"S", ["b"]⟩, ⟨"B", []⟩]

theorem ofRules_decides_listedRules :
    let policy : NamePolicy := { declared := some ["b", "a", "c"] }
    ¬ Rule.Unfit listedRules none policy ∧
      (∃ grammar, ofRules listedRules none policy = .ok grammar ∧ grammar.Spells listedRules ∧
        some (.nonterminal "S") = some grammar.start) ∧
      ∃ cause, ofRules listedRules (some "a") policy = .error cause := by
  intro policy
  obtain ⟨refused, spelled, -⟩ := ofRules_decides listedRules none policy
  have fit : ¬ Rule.Unfit listedRules none policy := by
    rw [← refused]
    rintro ⟨cause, error⟩
    have built : (ofRules listedRules none policy).toBool = true := by decide +kernel
    rw [error] at built
    cases built
  refine ⟨fit, spelled fit, (ofRules_decides listedRules (some "a") policy).1.mpr ?_⟩
  exact .start rfl (by decide)

end Grammar

end Predictive
