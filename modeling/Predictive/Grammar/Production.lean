import Predictive.Grammar.Symbol

/-! Productions, their normal form, and the places where a non-terminal occurs in them. -/

set_option autoImplicit false

namespace Predictive

/-- One alternative of a non-terminal. The identity is any integer; grammars that are read from
rules count from one. -/
structure Production where
  id : Int
  lhs : Symbol
  rhs : List Symbol
  deriving DecidableEq, Repr

/-- The right-hand side without the empty string, which is left only where nothing else is. -/
def normalizeRhs (symbols : List Symbol) : List Symbol :=
  let rhs := symbols.filter (· ≠ Symbol.epsilon)
  if rhs = [] then [Symbol.epsilon] else rhs

theorem normalizeRhs_ne_nil (symbols : List Symbol) : normalizeRhs symbols ≠ [] := by
  by_cases empty : symbols.filter (· ≠ Symbol.epsilon) = []
  · simp only [normalizeRhs, empty, if_true, ne_eq, List.cons_ne_nil, not_false_eq_true]
  · rw [normalizeRhs, if_neg empty]
    exact empty

theorem mem_normalizeRhs {symbol : Symbol} {symbols : List Symbol}
    (member : symbol ∈ normalizeRhs symbols) : symbol ∈ symbols ∨ symbol = Symbol.epsilon := by
  unfold normalizeRhs at member
  dsimp only at member
  split at member
  · exact .inr (by simpa using member)
  · exact .inl ((List.mem_filter.mp member).1)

theorem normalizeRhs_eq_self {symbols : List Symbol} (some : symbols ≠ [])
    (visible : Symbol.epsilon ∉ symbols) : normalizeRhs symbols = symbols := by
  have kept : symbols.filter (· ≠ Symbol.epsilon) = symbols := by
    refine List.filter_eq_self.mpr fun symbol member => decide_eq_true ?_
    rintro rfl
    exact visible member
  unfold normalizeRhs
  dsimp only
  rw [kept, if_neg some]

namespace Production

def isEpsilon (production : Production) : Bool :=
  production.rhs = [Symbol.epsilon]

@[simp] theorem isEpsilon_iff {production : Production} :
    production.isEpsilon = true ↔ production.rhs = [Symbol.epsilon] := by
  simp [isEpsilon]

def rhsText (production : Production) : String :=
  spacedNames production.rhs

def text (production : Production) : String :=
  production.lhs.name ++ " -> " ++ production.rhsText

end Production

/-- One place of a non-terminal in a right-hand side: whose production it is, and what follows. -/
structure Occurrence where
  lhs : Symbol
  symbol : Symbol
  rest : List Symbol
  deriving DecidableEq, Repr

/-- The places of non-terminals in a right-hand side of `lhs`, from left to right. -/
def occurrencesIn (lhs : Symbol) : List Symbol → List Occurrence
  | [] => []
  | symbol :: rest =>
    if symbol.isNonterminal then ⟨lhs, symbol, rest⟩ :: occurrencesIn lhs rest
    else occurrencesIn lhs rest

theorem mem_occurrencesIn {lhs : Symbol} {rhs : List Symbol} {place : Occurrence} :
    place ∈ occurrencesIn lhs rhs ↔
      place.lhs = lhs ∧ place.symbol.isNonterminal = true ∧
        ∃ before, rhs = before ++ place.symbol :: place.rest := by
  induction rhs with
  | nil => simp [occurrencesIn]
  | cons symbol rest ih =>
    constructor
    · intro member
      unfold occurrencesIn at member
      split at member
      · rename_i kind
        rcases List.mem_cons.mp member with same | later
        · subst same
          exact ⟨rfl, kind, [], rfl⟩
        · obtain ⟨owner, inner, before, equal⟩ := ih.mp later
          exact ⟨owner, inner, symbol :: before, by rw [equal]; rfl⟩
      · obtain ⟨owner, kind, before, equal⟩ := ih.mp member
        exact ⟨owner, kind, symbol :: before, by rw [equal]; rfl⟩
    · rintro ⟨owner, kind, before, equal⟩
      unfold occurrencesIn
      cases before with
      | nil =>
        obtain ⟨rfl, rfl⟩ := List.cons.inj equal
        rw [if_pos kind]
        exact List.mem_cons.mpr (.inl (by rw [← owner]))
      | cons first before =>
        have tail : rest = before ++ place.symbol :: place.rest := (List.cons.inj equal).2
        have later := ih.mpr ⟨owner, kind, before, tail⟩
        split
        · exact List.mem_cons_of_mem _ later
        · exact later

def Production.occurrences (production : Production) : List Occurrence :=
  occurrencesIn production.lhs production.rhs

end Predictive
