import Predictive.Proofs.WellFormed
import Mathlib.Logic.Relation

/-! Derivations. A sentential form is a sequence of symbols in which the empty string is not
written; one step replaces a non-terminal by one of its right-hand sides. What is derived from a
sequence is a sequence of what is derived from its parts. -/

set_option autoImplicit false

namespace Predictive

/-- The symbols that derive nothing but themselves, the empty string apart. -/
def Symbol.IsLeaf (symbol : Symbol) : Prop :=
  symbol.isNonterminal = false ∧ symbol ≠ .epsilon

theorem Symbol.isLeaf_terminal (name : String) : (Symbol.terminal name).IsLeaf :=
  ⟨rfl, by simp [Symbol.terminal, Symbol.epsilon]⟩

/-- The symbols of an input are leaves, and none of them is the end of input. -/
theorem clean_of_mem_terminals {names : List String} :
    ∀ symbol ∈ names.map Symbol.terminal, symbol.IsLeaf ∧ symbol ≠ .endOfInput := by
  intro symbol member
  obtain ⟨name, _, rfl⟩ := List.mem_map.mp member
  exact ⟨Symbol.isLeaf_terminal name, by simp [Symbol.terminal, Symbol.endOfInput]⟩

/-- The sentential form that a sequence of symbols stands for. -/
def withoutEpsilon (symbols : List Symbol) : List Symbol :=
  symbols.filter (· ≠ Symbol.epsilon)

@[simp] theorem withoutEpsilon_nil : withoutEpsilon [] = [] := rfl

@[simp] theorem withoutEpsilon_append (left right : List Symbol) :
    withoutEpsilon (left ++ right) = withoutEpsilon left ++ withoutEpsilon right :=
  List.filter_append ..

@[simp] theorem withoutEpsilon_epsilon_cons (rest : List Symbol) :
    withoutEpsilon (.epsilon :: rest) = withoutEpsilon rest := by
  simp [withoutEpsilon]

theorem withoutEpsilon_cons {symbol : Symbol} (visible : symbol ≠ .epsilon) (rest : List Symbol) :
    withoutEpsilon (symbol :: rest) = symbol :: withoutEpsilon rest := by
  simp [withoutEpsilon, visible]

@[simp] theorem mem_withoutEpsilon {symbol : Symbol} {symbols : List Symbol} :
    symbol ∈ withoutEpsilon symbols ↔ symbol ∈ symbols ∧ symbol ≠ .epsilon := by
  simp [withoutEpsilon]

@[simp] theorem withoutEpsilon_normalizeRhs (symbols : List Symbol) :
    withoutEpsilon (normalizeRhs symbols) = withoutEpsilon symbols := by
  unfold normalizeRhs
  by_cases empty : symbols.filter (· ≠ Symbol.epsilon) = []
  · simp only [empty, if_true]
    exact empty.symm
  · simp only [empty, if_false]
    simp [withoutEpsilon, List.filter_filter]

namespace Grammar

/-- One step of a derivation. -/
def Produces (grammar : Grammar) (form next : List Symbol) : Prop :=
  ∃ production ∈ grammar.productions, ∃ before after,
    form = before ++ production.lhs :: after ∧
      next = before ++ withoutEpsilon production.rhs ++ after

def Derives (grammar : Grammar) : List Symbol → List Symbol → Prop :=
  Relation.ReflTransGen grammar.Produces

variable {grammar : Grammar}

theorem Produces.of_production {production : Production}
    (declared : production ∈ grammar.productions) :
    grammar.Produces [production.lhs] (withoutEpsilon production.rhs) :=
  ⟨production, declared, [], [], rfl, by simp⟩

theorem Produces.append_left {form next : List Symbol} (step : grammar.Produces form next)
    (front : List Symbol) : grammar.Produces (front ++ form) (front ++ next) := by
  obtain ⟨production, declared, before, after, rfl, rfl⟩ := step
  exact ⟨production, declared, front ++ before, after, by simp, by simp⟩

theorem Produces.append_right {form next : List Symbol} (step : grammar.Produces form next)
    (back : List Symbol) : grammar.Produces (form ++ back) (next ++ back) := by
  obtain ⟨production, declared, before, after, rfl, rfl⟩ := step
  exact ⟨production, declared, before, after ++ back, by simp, by simp⟩

/-- A step in a sequence of two parts is a step in one of them. -/
theorem Produces.of_append {left right next : List Symbol}
    (step : grammar.Produces (left ++ right) next) :
    (∃ changed, grammar.Produces left changed ∧ next = changed ++ right) ∨
      ∃ changed, grammar.Produces right changed ∧ next = left ++ changed := by
  obtain ⟨production, declared, before, after, same, rfl⟩ := step
  rcases List.append_eq_append_iff.mp same with ⟨middle, rfl, rfl⟩ | ⟨middle, rfl, split⟩
  · refine .inr ⟨middle ++ withoutEpsilon production.rhs ++ after,
      ⟨production, declared, middle, after, rfl, rfl⟩, by simp⟩
  · cases middle with
    | nil =>
      refine .inr ⟨withoutEpsilon production.rhs ++ after,
        ⟨production, declared, [], after, by simpa using split.symm, rfl⟩, by simp⟩
    | cons first middle =>
      obtain ⟨rfl, rfl⟩ := List.cons.inj split
      refine .inl ⟨before ++ withoutEpsilon production.rhs ++ middle,
        ⟨production, declared, before, middle, rfl, rfl⟩, by simp⟩

theorem Produces.visible {form next : List Symbol} (step : grammar.Produces form next)
    (visible : .epsilon ∉ form) : .epsilon ∉ next := by
  obtain ⟨production, declared, before, after, rfl, rfl⟩ := step
  simp only [List.mem_append, List.mem_cons, not_or] at visible
  simp [visible.1, visible.2.2]

@[refl] theorem Derives.refl (form : List Symbol) : grammar.Derives form form :=
  Relation.ReflTransGen.refl

theorem Derives.trans {form middle next : List Symbol} (first : grammar.Derives form middle)
    (second : grammar.Derives middle next) : grammar.Derives form next :=
  Relation.ReflTransGen.trans first second

theorem Derives.of_production {production : Production}
    (declared : production ∈ grammar.productions) :
    grammar.Derives [production.lhs] (withoutEpsilon production.rhs) :=
  .single (.of_production declared)

theorem Derives.append_left {form next : List Symbol} (derived : grammar.Derives form next)
    (front : List Symbol) : grammar.Derives (front ++ form) (front ++ next) := by
  induction derived with
  | refl => exact .refl _
  | tail _ step ih => exact ih.tail (step.append_left front)

theorem Derives.append_right {form next : List Symbol} (derived : grammar.Derives form next)
    (back : List Symbol) : grammar.Derives (form ++ back) (next ++ back) := by
  induction derived with
  | refl => exact .refl _
  | tail _ step ih => exact ih.tail (step.append_right back)

theorem Derives.append {left right first second : List Symbol}
    (front : grammar.Derives left first) (back : grammar.Derives right second) :
    grammar.Derives (left ++ right) (first ++ second) :=
  (front.append_right right).trans (back.append_left first)

/-- What is derived from a sequence of two parts is derived from them one by one. -/
theorem Derives.of_append {left right next : List Symbol}
    (derived : grammar.Derives (left ++ right) next) :
    ∃ first second, next = first ++ second ∧
      grammar.Derives left first ∧ grammar.Derives right second := by
  induction derived with
  | refl => exact ⟨left, right, rfl, .refl _, .refl _⟩
  | tail _ step ih =>
    obtain ⟨first, second, rfl, front, back⟩ := ih
    rcases step.of_append with ⟨changed, inner, rfl⟩ | ⟨changed, inner, rfl⟩
    · exact ⟨changed, second, rfl, front.tail inner, back⟩
    · exact ⟨first, changed, rfl, front, back.tail inner⟩

theorem Produces.of_singleton {symbol : Symbol} {next : List Symbol}
    (step : grammar.Produces [symbol] next) :
    ∃ production ∈ grammar.productions,
      production.lhs = symbol ∧ next = withoutEpsilon production.rhs := by
  obtain ⟨production, declared, before, after, same, rfl⟩ := step
  obtain ⟨rfl, rfl, rfl⟩ : before = [] ∧ production.lhs = symbol ∧ after = [] := by
    simpa using List.append_eq_singleton_iff.mp same.symm
  exact ⟨production, declared, rfl, by simp⟩

theorem Derives.eq_nil_of_nil {next : List Symbol} (derived : grammar.Derives [] next) :
    next = [] := by
  rcases derived.cases_head with rfl | ⟨_, ⟨_, _, _, _, same, _⟩, _⟩
  · rfl
  · simp at same

/-- A leaf in front is there to stay. -/
theorem Derives.of_leaf_cons {symbol : Symbol} {rest next : List Symbol}
    (kind : symbol.isNonterminal = false) (derived : grammar.Derives (symbol :: rest) next) :
    ∃ tail, next = symbol :: tail ∧ grammar.Derives rest tail := by
  obtain ⟨first, tail, rfl, own, others⟩ :=
    Derives.of_append (show grammar.Derives ([symbol] ++ rest) next from derived)
  rcases own.cases_head with rfl | ⟨changed, step, _⟩
  · exact ⟨tail, rfl, others⟩
  · obtain ⟨production, declared, rfl, _⟩ := step.of_singleton
    simp [isNonterminal_lhs declared] at kind

/-- A non-terminal in front that is gone was replaced by one of its right-hand sides. -/
theorem Derives.of_nonterminal_cons {symbol : Symbol} {rest next : List Symbol}
    (gone : next.head? ≠ some symbol) (derived : grammar.Derives (symbol :: rest) next) :
    ∃ production ∈ grammar.productions, production.lhs = symbol ∧
      grammar.Derives (withoutEpsilon production.rhs ++ rest) next := by
  obtain ⟨first, tail, rfl, own, others⟩ :=
    Derives.of_append (show grammar.Derives ([symbol] ++ rest) next from derived)
  rcases own.cases_head with rfl | ⟨changed, step, onward⟩
  · exact absurd rfl gone
  · obtain ⟨production, declared, same, rfl⟩ := step.of_singleton
    exact ⟨production, declared, same, Derives.append onward others⟩

/-- The empty string is never written in a sentential form. -/
theorem Derives.visible {form next : List Symbol} (derived : grammar.Derives form next)
    (visible : .epsilon ∉ form) : .epsilon ∉ next := by
  induction derived with
  | refl => exact visible
  | tail _ step ih => exact step.visible ih

end Grammar

end Predictive
