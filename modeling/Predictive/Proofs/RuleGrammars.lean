import Predictive.Proofs.WellFormed

/-! Which rules make a grammar. Rules between names always do where no reserved name is used as one,
and a name that must have rules has them: their productions are numbered from one, and no check
finds a defect in them. -/

set_option autoImplicit false

namespace Predictive

namespace NamePolicy

/-- A policy that lets a name stand in a right-hand side. -/
def Allows (policy : NamePolicy) (lhsNames : List String) (name : String) : Prop :=
  name = Symbol.epsilon.name ∨
    name ≠ Symbol.endOfInput.name ∧ (policy.mustHaveRules name = true → name ∈ lhsNames)

/-- A policy by which a name without rules is a terminal. -/
def MakesTerminal (policy : NamePolicy) (name : String) : Prop :=
  match policy.declared with
  | some declared => name ∈ declared
  | none => policy.mustHaveRules name = false

/-- What may stand in a right-hand side, whether terminals are declared or not. -/
def Accepts (policy : NamePolicy) (lhsNames : List String) (name : String) : Prop :=
  name = Symbol.epsilon.name ∨
    name ≠ Symbol.endOfInput.name ∧ (name ∈ lhsNames ∨ policy.MakesTerminal name)

theorem Allows.accepts {policy : NamePolicy} {lhsNames : List String} {name : String}
    (allows : policy.Allows lhsNames name) (undeclared : policy.declared = none) :
    policy.Accepts lhsNames name := by
  refine allows.imp_right fun ⟨other, ruled⟩ => ⟨other, ?_⟩
  by_cases must : policy.mustHaveRules name = true
  · exact .inl (ruled must)
  · refine .inr ?_
    simpa [MakesTerminal, undeclared] using must

end NamePolicy

namespace Rule

/-- The symbol that a name stands for where it is allowed. -/
def symbol (lhsNames : List String) (name : String) : Symbol :=
  if name = Symbol.epsilon.name then .epsilon
  else if lhsNames.contains name then .nonterminal name
  else .terminal name

/-- The productions of rules in which all names are allowed, numbered from `id`. -/
def numbered (lhsNames : List String) : (id : Int) → List Rule → List Production
  | _, [] => []
  | id, rule :: rest =>
    ⟨id, .nonterminal rule.lhs, normalizeRhs (rule.rhs.map (symbol lhsNames))⟩ ::
      numbered lhsNames (id + 1) rest

variable {policy : NamePolicy} {lhsNames : List String} {rules : List Rule} {id : Int}

@[simp] theorem name_symbol (lhsNames : List String) (name : String) :
    (symbol lhsNames name).name = name := by
  unfold symbol
  split
  · rename_i empty
    exact empty.symm
  · split <;> rfl

theorem symbol_cases (lhsNames : List String) (name : String) :
    symbol lhsNames name = .epsilon ∨
      (symbol lhsNames name = .nonterminal name ∧ name ∈ lhsNames) ∨
        (symbol lhsNames name = .terminal name ∧ name ∉ lhsNames) := by
  unfold symbol
  by_cases empty : name = Symbol.epsilon.name
  · simp [empty]
  · by_cases known : name ∈ lhsNames <;> simp [empty, known]

theorem classify_eq_ok {name : String} (accepted : policy.Accepts lhsNames name) (lhs : String) :
    classify policy lhsNames lhs name = .ok (symbol lhsNames name) := by
  unfold classify symbol
  rcases accepted with rfl | ⟨other, ruled | terminal⟩
  · simp
  · by_cases empty : name = Symbol.epsilon.name
    · simp [empty]
    · simp [empty, other, ruled]
  · by_cases empty : name = Symbol.epsilon.name
    · simp [empty]
    · by_cases known : name ∈ lhsNames
      · simp [empty, other, known]
      · unfold NamePolicy.MakesTerminal at terminal
        cases declared : policy.declared with
        | some names =>
          rw [declared] at terminal
          have listed : name ∈ names := terminal
          simp [empty, other, known, listed]
        | none =>
          rw [declared] at terminal
          have free : policy.mustHaveRules name = false := terminal
          simp [empty, other, known, free]

/-- A name that is not accepted is refused. -/
theorem accepts_of_classify {name lhs : String} {classified : Symbol}
    (ok : classify policy lhsNames lhs name = .ok classified) : policy.Accepts lhsNames name := by
  unfold classify at ok
  split at ok
  · rename_i empty
    exact .inl empty
  · split at ok
    · cases ok
    · rename_i other
      refine .inr ⟨other, ?_⟩
      split at ok
      · rename_i known
        exact .inl (by simpa using known)
      · refine .inr ?_
        unfold NamePolicy.MakesTerminal
        split at ok
        · rename_i declared
          split at ok
          · rename_i listed
            simpa [declared] using listed
          · cases ok
        · rename_i undeclared
          split at ok
          · cases ok
          · rename_i free
            simpa [undeclared] using free

theorem mapM_classify_eq_ok {names : List String}
    (accepted : ∀ name ∈ names, policy.Accepts lhsNames name) (lhs : String) :
    names.mapM (classify policy lhsNames lhs) = .ok (names.map (symbol lhsNames)) :=
  mapM_eq_ok fun name member => classify_eq_ok (accepted name member) lhs

theorem accepts_of_mapM_classify {names : List String} {lhs : String} {symbols : List Symbol}
    (ok : names.mapM (classify policy lhsNames lhs) = .ok symbols) :
    ∀ name ∈ names, policy.Accepts lhsNames name := by
  induction names generalizing symbols with
  | nil => simp
  | cons name rest ih =>
    rw [List.mapM_cons] at ok
    obtain ⟨first, classified, ok⟩ := exists_of_bind_eq_ok ok
    obtain ⟨others, later, ok⟩ := exists_of_bind_eq_ok ok
    exact List.forall_mem_cons.mpr ⟨accepts_of_classify classified, ih later⟩

theorem productions_eq_ok
    (accepted : ∀ rule ∈ rules, ∀ name ∈ rule.rhs, policy.Accepts lhsNames name) :
    productions policy lhsNames id rules = .ok (numbered lhsNames id rules) := by
  induction rules generalizing id with
  | nil => rfl
  | cons rule rest ih =>
    obtain ⟨first, others⟩ := List.forall_mem_cons.mp accepted
    unfold productions numbered
    rw [mapM_classify_eq_ok first, ih others]
    rfl

theorem accepts_of_productions {read : List Production}
    (ok : productions policy lhsNames id rules = .ok read) :
    ∀ rule ∈ rules, ∀ name ∈ rule.rhs, policy.Accepts lhsNames name := by
  induction rules generalizing id read with
  | nil => simp
  | cons rule rest ih =>
    obtain ⟨symbols, classified, ok⟩ := exists_of_bind_eq_ok ok
    obtain ⟨others, later, ok⟩ := exists_of_bind_eq_ok ok
    exact List.forall_mem_cons.mpr ⟨accepts_of_mapM_classify classified, ih later⟩

/-- Productions that are read are the numbered ones. -/
theorem eq_numbered_of_productions {read : List Production}
    (ok : productions policy lhsNames id rules = .ok read) : read = numbered lhsNames id rules := by
  rw [productions_eq_ok (accepts_of_productions ok)] at ok
  exact (Except.ok.inj ok).symm

/-! ### The numbered productions -/

theorem map_lhs_numbered :
    (numbered lhsNames id rules).map Production.lhs = rules.map fun rule => .nonterminal rule.lhs := by
  induction rules generalizing id with
  | nil => rfl
  | cons rule rest ih => rw [numbered, List.map_cons, List.map_cons, ih]

theorem mem_lhsSymbols_numbered {name : String} :
    .nonterminal name ∈ lhsSymbols (numbered lhsNames id rules) ↔ name ∈ rules.map Rule.lhs := by
  simp [lhsSymbols, map_lhs_numbered, Symbol.nonterminal]

theorem rhs_of_mem_numbered {production : Production}
    (member : production ∈ numbered lhsNames id rules) :
    ∃ rule ∈ rules, production.rhs = normalizeRhs (rule.rhs.map (symbol lhsNames)) := by
  induction rules generalizing id with
  | nil => cases member
  | cons rule rest ih =>
    rcases List.mem_cons.mp member with rfl | later
    · exact ⟨rule, List.mem_cons_self, rfl⟩
    · obtain ⟨other, known, equal⟩ := ih later
      exact ⟨other, List.mem_cons_of_mem _ known, equal⟩

/-- What stands in a right-hand side stands for the empty string, or for a name of its kind. -/
theorem symbol_of_mem_numbered {production : Production}
    (member : production ∈ numbered lhsNames id rules) {symbol : Symbol}
    (written : symbol ∈ production.rhs) :
    symbol = .epsilon ∨ (∃ name ∈ lhsNames, symbol = .nonterminal name) ∨
      ∃ name ∉ lhsNames, symbol = .terminal name := by
  obtain ⟨rule, _, equal⟩ := rhs_of_mem_numbered member
  rw [equal] at written
  rcases mem_normalizeRhs written with named | empty
  · obtain ⟨name, _, rfl⟩ := List.mem_map.mp named
    rcases symbol_cases lhsNames name with empty | ⟨same, known⟩ | ⟨same, unknown⟩
    · exact .inl empty
    · exact .inr (.inl ⟨name, known, same⟩)
    · exact .inr (.inr ⟨name, unknown, same⟩)
  · exact .inl empty

theorem lhsDefect?_numbered {used : List Int} (before : ∀ other ∈ used, other < id) :
    lhsDefect? used (numbered lhsNames id rules) = none := by
  induction rules generalizing used id with
  | nil => rfl
  | cons rule rest ih =>
    have fresh : id ∉ used := fun member => Int.lt_irrefl id (before id member)
    have later : ∀ other ∈ id :: used, other < id + 1 := by
      refine List.forall_mem_cons.mpr ⟨by omega, fun other member => ?_⟩
      have less := before other member
      omega
    simp [numbered, lhsDefect?, fresh, ih later]

theorem rhsDefect?_numbered {production : Production}
    (member : production ∈ numbered (rules.map Rule.lhs) id rules) :
    rhsDefect? (lhsSymbols (numbered (rules.map Rule.lhs) id rules)) production = none := by
  refine List.findSome?_eq_none_iff.mpr fun symbol written => ?_
  rcases symbol_of_mem_numbered member written with rfl | ⟨name, known, rfl⟩ | ⟨name, _, rfl⟩
  · rfl
  · have defined : .nonterminal name ∈ lhsSymbols (numbered (rules.map Rule.lhs) id rules) :=
      mem_lhsSymbols_numbered.mpr known
    have kind : (Symbol.nonterminal name).kind ≠ .endOfInput := by simp [Symbol.nonterminal]
    simp [kind, defined]
  · rfl

theorem nameDefect?_numbered :
    nameDefect? (lhsSymbols (numbered (rules.map Rule.lhs) id rules))
      (rhsTerminals (numbered (rules.map Rule.lhs) id rules)) = none := by
  unfold nameDefect?
  rw [Option.map_eq_none_iff, List.find?_eq_none]
  intro terminal member
  obtain ⟨⟨production, declared, written⟩, kind⟩ :
      (∃ production ∈ numbered (rules.map Rule.lhs) id rules, terminal ∈ production.rhs) ∧
        terminal.isTerminal = true := by
    simpa [rhsTerminals] using member
  rcases symbol_of_mem_numbered declared written with rfl | ⟨name, _, rfl⟩ | ⟨name, unknown, rfl⟩
  · cases kind
  · cases kind
  · simpa [mem_lhsSymbols_numbered, Symbol.terminal] using unknown

/-- No check finds a defect in the productions of rules. -/
theorem defect?_numbered {start : String} (ruled : start ∈ rules.map Rule.lhs) :
    defect? (numbered (rules.map Rule.lhs) id rules) (.nonterminal start) = none := by
  have known : .nonterminal start ∈ lhsSymbols (numbered (rules.map Rule.lhs) id rules) :=
    mem_lhsSymbols_numbered.mpr ruled
  have right : (numbered (rules.map Rule.lhs) id rules).findSome?
      (rhsDefect? (lhsSymbols (numbered (rules.map Rule.lhs) id rules))) = none :=
    List.findSome?_eq_none_iff.mpr fun _ member => rhsDefect?_numbered member
  have some : numbered (rules.map Rule.lhs) id rules ≠ [] := by
    intro empty
    simp [empty, lhsSymbols] at known
  unfold defect?
  simp [some, lhsDefect?_numbered, right, known, nameDefect?_numbered]

theorem reservedLhs?_eq_none
    (free : ∀ name ∈ lhsNames, Symbol.isReservedName name = false) :
    reservedLhs? lhsNames = none := by
  unfold reservedLhs?
  rw [List.find?_eq_none]
  intro name reserved used
  have unreserved := free name (List.contains_iff_mem.mp used)
  rcases List.mem_pair.mp reserved with rfl | rfl <;> simp [Symbol.isReservedName] at unreserved

end Rule

namespace Grammar

/-- The grammar of some rules in which all names are allowed. -/
def numbered (first : Rule) (rest : List Rule) : Grammar where
  productions := Rule.numbered ((first :: rest).map Rule.lhs) 1 (first :: rest)
  start := .nonterminal first.lhs
  sound := Rule.defect?_numbered (by simp)

theorem ofRules_eq_ok {first : Rule} {rest : List Rule} {policy : NamePolicy}
    (undeclared : policy.declared = none)
    (free : ∀ name ∈ (first :: rest).map Rule.lhs, Symbol.isReservedName name = false)
    (allowed : ∀ rule ∈ first :: rest, ∀ name ∈ rule.rhs,
      policy.Allows ((first :: rest).map Rule.lhs) name) :
    ofRules (first :: rest) none policy = .ok (numbered first rest) := by
  have undisputed : Rule.declaredWithRules (policy.declared.getD []) ((first :: rest).map Rule.lhs) =
      [] := by
    simp [undeclared, Rule.declaredWithRules]
  have accepted : ∀ rule ∈ first :: rest, ∀ name ∈ rule.rhs,
      policy.Accepts ((first :: rest).map Rule.lhs) name :=
    fun rule known name written => (allowed rule known name written).accepts undeclared
  have ruled : ((first :: rest).map Rule.lhs).contains first.lhs = true := by simp
  unfold ofRules
  simp only [Rule.reservedLhs?_eq_none free, undisputed,
    Rule.productions_eq_ok accepted, Option.getD_none]
  change (if ((first :: rest).map Rule.lhs).contains first.lhs = true then _ else _) = _
  rw [if_pos ruled]
  exact ofProductions_self (numbered first rest)

end Grammar

end Predictive
