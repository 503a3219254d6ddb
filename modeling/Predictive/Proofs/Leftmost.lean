import Predictive.Proofs.Derivation

/-! Leftmost derivations, as the list of the productions that are applied. Every string without
non-terminals that is derived at all has a leftmost derivation. -/

set_option autoImplicit false

namespace Predictive

namespace Grammar

/-- The productions of a leftmost derivation, in order: each replaces the first non-terminal. -/
inductive LeftmostDerives (grammar : Grammar) :
    List Symbol → List Production → List Symbol → Prop where
  | nil (form : List Symbol) : grammar.LeftmostDerives form [] form
  | cons {production : Production} (declared : production ∈ grammar.productions)
      {before after target : List Symbol} {derivation : List Production}
      (leaves : ∀ symbol ∈ before, symbol.isNonterminal = false)
      (rest : grammar.LeftmostDerives (before ++ withoutEpsilon production.rhs ++ after)
        derivation target) :
      grammar.LeftmostDerives (before ++ production.lhs :: after) (production :: derivation) target

variable {grammar : Grammar}

theorem LeftmostDerives.derives {form target : List Symbol} {derivation : List Production}
    (leftmost : grammar.LeftmostDerives form derivation target) : grammar.Derives form target := by
  induction leftmost with
  | nil => exact .refl _
  | cons declared _ _ ih => exact ih.head ⟨_, declared, _, _, rfl, rfl⟩

theorem LeftmostDerives.eq_of_no_productions {form target : List Symbol}
    (leftmost : grammar.LeftmostDerives form [] target) : target = form := by
  cases leftmost with
  | nil => rfl

/-! ### What a form begins with -/

theorem LeftmostDerives.of_nil {target : List Symbol} {derivation : List Production}
    (leftmost : grammar.LeftmostDerives [] derivation target) : derivation = [] ∧ target = [] := by
  generalize same : ([] : List Symbol) = form at leftmost
  cases leftmost with
  | nil =>
    subst same
    exact ⟨rfl, rfl⟩
  | cons => simp at same

/-- A symbol in front that is no non-terminal is there to stay. -/
theorem LeftmostDerives.of_leaf {symbol : Symbol} {rest target : List Symbol}
    {derivation : List Production} (kind : symbol.isNonterminal = false)
    (leftmost : grammar.LeftmostDerives (symbol :: rest) derivation target) :
    ∃ tail, target = symbol :: tail ∧ grammar.LeftmostDerives rest derivation tail := by
  generalize same : symbol :: rest = form at leftmost
  induction leftmost generalizing rest with
  | nil => exact ⟨rest, same.symm, .nil rest⟩
  | @cons production declared before after target derivation leaves _ ih =>
    cases before with
    | nil =>
      obtain ⟨rfl, rfl⟩ := List.cons.inj same
      simp [isNonterminal_lhs declared] at kind
    | cons first before =>
      obtain ⟨rfl, rfl⟩ := List.cons.inj same
      obtain ⟨tail, rfl, inner⟩ := ih rfl
      exact ⟨tail, rfl,
        .cons declared (fun symbol member => leaves symbol (List.mem_cons_of_mem _ member)) inner⟩

/-- A non-terminal in front is what the first production replaces. -/
theorem LeftmostDerives.of_nonterminal {symbol : Symbol} {rest target : List Symbol}
    {derivation : List Production} (kind : symbol.isNonterminal = true)
    (terminated : ∀ symbol ∈ target, symbol.isNonterminal = false)
    (leftmost : grammar.LeftmostDerives (symbol :: rest) derivation target) :
    ∃ production ∈ grammar.productions, ∃ others, production.lhs = symbol ∧
      derivation = production :: others ∧
      grammar.LeftmostDerives (withoutEpsilon production.rhs ++ rest) others target := by
  generalize same : symbol :: rest = form at leftmost
  cases leftmost with
  | nil =>
    subst same
    simp [terminated symbol (by simp)] at kind
  | @cons production declared before after _ others leaves inner =>
    cases before with
    | nil =>
      obtain ⟨rfl, rfl⟩ := List.cons.inj same
      exact ⟨production, declared, others, rfl, rfl, inner⟩
    | cons first before =>
      obtain ⟨rfl, _⟩ := List.cons.inj same
      simp [leaves symbol (by simp)] at kind

/-! ### Existence -/

theorem LeftmostDerives.append_leaves {form target : List Symbol} {derivation : List Production}
    (leftmost : grammar.LeftmostDerives form derivation target) {front : List Symbol}
    (leaves : ∀ symbol ∈ front, symbol.isNonterminal = false) :
    grammar.LeftmostDerives (front ++ form) derivation (front ++ target) := by
  induction leftmost with
  | nil => exact .nil _
  | @cons production declared before after target derivation inner _ ih =>
    rw [← List.append_assoc]
    refine .cons declared (List.forall_mem_append.mpr ⟨leaves, inner⟩) ?_
    simpa using ih

theorem LeftmostDerives.of_append_leaves {front form target : List Symbol}
    {derivation : List Production} (leaves : ∀ symbol ∈ front, symbol.isNonterminal = false)
    (leftmost : grammar.LeftmostDerives (front ++ form) derivation target) :
    ∃ tail, target = front ++ tail ∧ grammar.LeftmostDerives form derivation tail := by
  induction front generalizing target with
  | nil => exact ⟨target, rfl, leftmost⟩
  | cons first front ih =>
    obtain ⟨own, others⟩ := List.forall_mem_cons.mp leaves
    obtain ⟨tail, rfl, inner⟩ := leftmost.of_leaf own
    obtain ⟨last, rfl, final⟩ := ih others inner
    exact ⟨last, rfl, final⟩

/-- Any first step can be put off until its non-terminal is the leftmost one. -/
theorem LeftmostDerives.of_produces {form next target : List Symbol}
    {derivation : List Production} (step : grammar.Produces form next)
    (leftmost : grammar.LeftmostDerives next derivation target)
    (terminated : ∀ symbol ∈ target, symbol.isNonterminal = false) :
    ∃ others, grammar.LeftmostDerives form others target := by
  -- by the leftmost derivation, which is shorter by one production behind its first step
  induction derivation generalizing form next target with
  | nil =>
    obtain rfl := leftmost.eq_of_no_productions
    obtain ⟨production, declared, before, after, rfl, rfl⟩ := step
    refine ⟨[production], .cons declared ?_ (.nil _)⟩
    intro symbol member
    exact terminated symbol (by simp [member])
  | cons chosen derivation ih =>
    obtain ⟨production, declared, before, after, rfl, rfl⟩ := step
    cases found : before.find? Symbol.isNonterminal with
    | none =>
      have leaves : ∀ symbol ∈ before, symbol.isNonterminal = false := by
        simpa using found
      exact ⟨_, .cons declared leaves leftmost⟩
    | some symbol =>
      -- the leftmost derivation replaces an earlier symbol, and the step is put off behind that
      obtain ⟨kind, front, middle, rfl, none⟩ := List.find?_eq_some_iff_append.mp found
      have leaves : ∀ symbol ∈ front, symbol.isNonterminal = false := by
        simpa using none
      rw [List.append_assoc, List.append_assoc] at leftmost
      obtain ⟨tail, rfl, inner⟩ := leftmost.of_append_leaves leaves
      have tailed : ∀ symbol ∈ tail, symbol.isNonterminal = false :=
        (List.forall_mem_append.mp terminated).2
      obtain ⟨first, known, others, rfl, split, later⟩ := inner.of_nonterminal kind tailed
      obtain ⟨rfl, rfl⟩ := List.cons.inj split
      have postponed : grammar.Produces
          (withoutEpsilon chosen.rhs ++ middle ++ production.lhs :: after)
          (withoutEpsilon chosen.rhs ++ middle ++ withoutEpsilon production.rhs ++ after) :=
        ⟨production, declared, _, after, rfl, rfl⟩
      obtain ⟨found, final⟩ := ih postponed (by simpa using later) tailed
      have whole : grammar.LeftmostDerives
          ([] ++ chosen.lhs :: (middle ++ production.lhs :: after)) (chosen :: found) tail :=
        .cons known (by simp) (by simpa using final)
      exact ⟨chosen :: found, by simpa using whole.append_leaves leaves⟩

theorem Derives.leftmost {form target : List Symbol} (derived : grammar.Derives form target)
    (terminated : ∀ symbol ∈ target, symbol.isNonterminal = false) :
    ∃ derivation, grammar.LeftmostDerives form derivation target := by
  induction derived using Relation.ReflTransGen.head_induction_on with
  | refl => exact ⟨[], .nil _⟩
  | head step _ ih =>
    obtain ⟨derivation, leftmost⟩ := ih
    exact leftmost.of_produces step terminated

end Grammar

end Predictive
