import Predictive.Proofs.WellFormed
import Predictive.Source.Loader

/-! Start symbols. A grammar may get its start symbol while its text is read, or afterwards in place
of the one that it has; it is the same grammar then, and the same names are accepted. -/

set_option autoImplicit false

namespace Predictive

/-! ### Names of symbols -/

namespace Grammar

variable {grammar changed : Grammar} {name : String} {symbol : Symbol}

theorem mem_names_nonTerminals :
    name ∈ grammar.nonTerminals.map Symbol.name ↔ .nonterminal name ∈ grammar.nonTerminals := by
  rw [List.mem_map]
  constructor
  · rintro ⟨symbol, known, rfl⟩
    rwa [← Symbol.eq_nonterminal (isNonterminal_of_mem known)]
  · intro known
    exact ⟨_, known, rfl⟩

theorem name_of_find? (found : grammar.find? name = some symbol) : symbol.name = name := by
  unfold find? at found
  split at found
  · rename_i empty
    cases found
    exact empty.symm
  · split at found
    · rename_i ending
      cases found
      exact ending.symm
    · simpa using List.find?_some found

theorem find?_nonterminal (known : .nonterminal name ∈ grammar.nonTerminals)
    (free : Symbol.isReservedName name = false) :
    grammar.find? name = some (.nonterminal name) := by
  obtain ⟨visible, inside⟩ : name ≠ Symbol.epsilon.name ∧ name ≠ Symbol.endOfInput.name := by
    simpa [Symbol.isReservedName] using free
  unfold find?
  rw [if_neg visible, if_neg inside, List.find?_append]
  cases found : grammar.nonTerminals.find? (·.name = name) with
  | none =>
    have absent := List.find?_eq_none.mp found _ known
    simp [Symbol.nonterminal] at absent
  | some symbol =>
    have same : symbol.name = name := by simpa using List.find?_some found
    have kind := isNonterminal_of_mem (List.mem_of_find?_eq_some found)
    rw [Symbol.eq_nonterminal kind, same]
    rfl

/-! ### Another start symbol -/

/-- The productions of a grammar from another of its non-terminals. -/
def startingAt (grammar : Grammar) (start : Symbol) (known : start ∈ grammar.nonTerminals) :
    Grammar where
  productions := grammar.productions
  start := start
  sound := by
    obtain ⟨some, left, right, _, names⟩ := grammar.checks
    have clean : grammar.productions.findSome? (rhsDefect? (lhsSymbols grammar.productions)) = none :=
      List.findSome?_eq_none_iff.mpr right
    have known : start ∈ lhsSymbols grammar.productions := known
    have names : nameDefect? (lhsSymbols grammar.productions) (rhsTerminals grammar.productions) =
      none := names
    unfold defect?
    simp [some, left, clean, known, names]

theorem ofProductions_startingAt {start : Symbol} (known : start ∈ grammar.nonTerminals) :
    ofProductions grammar.productions start = .ok (grammar.startingAt start known) :=
  ofProductions_self (grammar.startingAt start known)

theorem withStart_eq_ok (known : .nonterminal name ∈ grammar.nonTerminals)
    (free : Symbol.isReservedName name = false) :
    grammar.withStart (.named name) = .ok (grammar.startingAt (.nonterminal name) known) := by
  unfold withStart resolve?
  simp only [find?_nonterminal known free, Symbol.isNonterminal_nonterminal, if_true]
  exact ofProductions_startingAt known

/-- A start symbol that is given by its name is the non-terminal of this name. -/
theorem ofProductions_of_withStart (built : grammar.withStart (.named name) = .ok changed) :
    ofProductions grammar.productions (.nonterminal name) = .ok changed := by
  unfold withStart at built
  split at built
  · rename_i symbol found
    split at built
    · rename_i kind
      have same : symbol = .nonterminal name := by
        rw [← name_of_find? found]
        exact Symbol.eq_nonterminal kind
      rwa [← same]
    · cases built
  · cases built

/-- What start symbol a grammar had does not matter when it gets another. -/
theorem withStart_congr {left right : Grammar} (same : left.productions = right.productions)
    (start : SymbolReference) : left.withStart start = right.withStart start := by
  cases start <;>
    simp only [withStart, resolve?, find?, nonTerminals, terminals, same]

end Grammar

/-! ### Start symbols of rules and of texts -/

theorem Rule.lhs_of_productions {policy : NamePolicy} {lhsNames : List String} {id : Int}
    {rules : List Rule} {productions : List Production}
    (read : Rule.productions policy lhsNames id rules = .ok productions) :
    productions.map Production.lhs = rules.map fun rule => .nonterminal rule.lhs := by
  induction rules generalizing id productions with
  | nil =>
    cases read
    rfl
  | cons rule rest ih =>
    obtain ⟨symbols, _, read⟩ := exists_of_bind_eq_ok read
    obtain ⟨others, later, read⟩ := exists_of_bind_eq_ok read
    cases read
    rw [List.map_cons, List.map_cons, ih later]

theorem Rule.unreserved_of_reservedLhs? {lhsNames : List String}
    (free : Rule.reservedLhs? lhsNames = none) {name : String} (used : name ∈ lhsNames) :
    Symbol.isReservedName name = false := by
  have passed := List.find?_eq_none.mp free
  by_contra reserved
  have same : name = Symbol.epsilon.name ∨ name = Symbol.endOfInput.name := by
    simpa [Symbol.isReservedName, or_iff_not_imp_left] using reserved
  rcases same with rfl | rfl
  · exact passed Symbol.epsilon.name (by simp) (by simpa using used)
  · exact passed Symbol.endOfInput.name (by simp) (by simpa using used)

namespace Grammar

/-- What is known of productions that were read: which start symbols they accept, and which one
they get if none is asked for. -/
structure Starts (grammar : Grammar) (read : Option String → Except GrammarError Grammar)
    (first : String) : Prop where
  first_mem : .nonterminal first ∈ grammar.nonTerminals
  free : ∀ name, .nonterminal name ∈ grammar.nonTerminals → Symbol.isReservedName name = false
  read_eq : ∀ start : Option String,
    read start = if .nonterminal (start.getD first) ∈ grammar.nonTerminals then
      ofProductions grammar.productions (.nonterminal (start.getD first))
    else .error (.startWithoutProductions (start.getD first))

theorem starts_ofRules {rules : List Rule} {policy : NamePolicy} {start : Option String}
    {grammar : Grammar} (built : ofRules rules start policy = .ok grammar) :
    ∃ first, grammar.Starts (ofRules rules · policy) first := by
  cases rules with
  | nil => cases built
  | cons first rest =>
    unfold ofRules at built
    dsimp only at built
    split at built
    · cases built
    · rename_i free
      split at built
      · cases built
      · rename_i undisputed
        obtain ⟨productions, read, built⟩ := exists_of_bind_eq_ok built
        split at built
        · obtain ⟨rfl, -⟩ := eq_of_ofProductions built
          have listed : ∀ name, .nonterminal name ∈ grammar.nonTerminals ↔
              name ∈ (first :: rest).map Rule.lhs := by
            intro name
            simp [nonTerminals, lhsSymbols, Rule.lhs_of_productions read, Symbol.nonterminal]
          refine ⟨first.lhs, ?_, ?_, ?_⟩
          · exact (listed _).mpr (by simp)
          · exact fun name known => Rule.unreserved_of_reservedLhs? free ((listed name).mp known)
          · -- nothing that comes before the choice of a start symbol depends on it
            intro start
            unfold ofRules
            dsimp only
            rw [free, undisputed, read]
            simp only [listed, ← List.contains_iff_mem]
            rfl
        · cases built

variable {options : GrammarOptions} {text name : String}

theorem starts_ofText {start : Option String} {grammar : Grammar}
    (built : ofText options text start = .ok grammar) :
    ∃ first, grammar.Starts (ofText options text) first := by
  unfold ofText at built ⊢
  cases read : Source.rules options text with
  | error cause =>
    rw [read] at built
    cases built
  | ok rules =>
    rw [read] at built
    cases rules with
    | nil => cases built
    | cons rule rest => exact starts_ofRules built

/-- A start symbol that is chosen among the non-terminals of a text may as well be asked for when
the text is read. -/
theorem ofText_of_listed {loaded : Grammar} (read : ofText options text none = .ok loaded)
    (listed : name ∈ loaded.nonTerminals.map Symbol.name) :
    ∃ started, loaded.withStart (.named name) = .ok started ∧
      ofText options text (some name) = .ok started := by
  obtain ⟨first, starts⟩ := starts_ofText read
  have known := mem_names_nonTerminals.mp listed
  refine ⟨_, withStart_eq_ok known (starts.free name known), ?_⟩
  rw [starts.read_eq, Option.getD_some, if_pos known]
  exact ofProductions_startingAt known

/-- A start symbol that is asked for when a text is read is one of its non-terminals. -/
theorem listed_of_ofText {started : Grammar} (read : ofText options text (some name) = .ok started) :
    ∃ loaded, ofText options text none = .ok loaded ∧
      name ∈ loaded.nonTerminals.map Symbol.name := by
  obtain ⟨first, starts⟩ := starts_ofText read
  have known : .nonterminal name ∈ started.nonTerminals := by
    by_contra unknown
    rw [starts.read_eq, Option.getD_some, if_neg unknown] at read
    cases read
  refine ⟨started.startingAt _ starts.first_mem, ?_, mem_names_nonTerminals.mpr known⟩
  rw [starts.read_eq, Option.getD_none, if_pos starts.first_mem]
  exact ofProductions_startingAt starts.first_mem

end Grammar

end Predictive
