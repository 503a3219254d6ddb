import Predictive.Proofs.Bookkeeping

/-! What the guard of a run detects. Every noted expansion has been turned, without input, into the
part of the stack that stands above its height, unless its right-hand side was empty. So where a
symbol would be expanded again, a run without the guard turns it into itself and more, and does so
forever: a run that ends without the guard ends with it, by the same steps. -/

set_option autoImplicit false

namespace Predictive

/-- A step at the top of some symbols of the stack that consumes no input. -/
inductive ParseTable.Reworks (table : ParseTable) (lookahead : Symbol) :
    List Symbol → List Symbol → Prop where
  | dropEpsilon (rest : List Symbol) : table.Reworks lookahead (.epsilon :: rest) rest
  | expand {top : Symbol} {production : Production} (kind : top.isNonterminal = true)
      (filled : table.productionAt top lookahead = .ok (some production)) (rest : List Symbol) :
      table.Reworks lookahead (top :: rest) (production.rhs ++ rest)
  | skipNonterminal {top : Symbol} (kind : top.isNonterminal = true)
      (vacant : table.productionAt top lookahead = .ok none) (rest : List Symbol) :
      table.Reworks lookahead (top :: rest) rest
  | skipLeaf {top : Symbol} (leaf : top.IsLeaf) (other : top ≠ lookahead) (rest : List Symbol) :
      table.Reworks lookahead (top :: rest) rest

namespace ParseTable

variable {table : ParseTable} {lookahead : Symbol} {segment next : List Symbol}

theorem Reworks.append_right (step : table.Reworks lookahead segment next) (below : List Symbol) :
    table.Reworks lookahead (segment ++ below) (next ++ below) := by
  cases step with
  | dropEpsilon => exact .dropEpsilon _
  | expand kind filled rest =>
    rw [List.cons_append, List.append_assoc]
    exact .expand kind filled _
  | skipNonterminal kind vacant => exact .skipNonterminal kind vacant _
  | skipLeaf leaf other => exact .skipLeaf leaf other _

theorem Reworks.step {run : Run} (step : table.Reworks run.configuration.lookahead segment next)
    (stack : run.configuration.stack = segment) :
    ∃ later, run.step false table = .ok (.inl later) ∧ later.configuration.stack = next ∧
      later.configuration.remaining = run.configuration.remaining := by
  cases step with
  | dropEpsilon rest =>
    exact ⟨_, Run.step_of_advances stack (.dropEpsilon rfl), by simp [stack], rfl⟩
  | expand kind filled rest =>
    exact ⟨_, Run.step_of_advances stack (.expand kind filled (by simp)), by simp [stack], rfl⟩
  | skipNonterminal kind vacant rest =>
    exact ⟨_, Run.step_of_advances stack (.skipNonterminal kind vacant), by simp [stack], rfl⟩
  | skipLeaf leaf other rest =>
    exact ⟨_, Run.step_of_advances stack (.skipLeaf leaf other), by simp [stack], rfl⟩

end ParseTable

namespace Run

variable {guarded : Bool} {table : ParseTable} {run next : Run} {top : Symbol}
  {segment below : List Symbol}

/-! ### The noted expansions -/

theorem exists_noted_of_isOpen {configuration : Configuration}
    (opened : configuration.isOpen top = true) :
    ∃ height, (top, height) ∈ configuration.expansions := by
  obtain ⟨⟨symbol, height⟩, noted, same⟩ := List.any_eq_true.mp opened
  obtain rfl : symbol = top := by simpa using same
  exact ⟨height, noted⟩

/-- The symbols of the stack that an expansion noted with a height has been turned into. -/
def TurnedInto (table : ParseTable) (lookahead : Symbol) (stack : List Symbol)
    (entry : Symbol × Nat) : Prop :=
  ∃ segment below, stack = segment ++ below ∧ below.length + 1 = entry.2 ∧ segment ≠ [] ∧
    Relation.TransGen (table.Reworks lookahead) [entry.1] segment

/-- What is noted for symbols further down stays noted when the top is replaced. -/
theorem TurnedInto.replace {lookahead : Symbol} {entry : Symbol × Nat}
    (turned : TurnedInto table lookahead (top :: below) entry) (low : entry.2 ≤ below.length)
    (replacement : List Symbol)
    (step : ∀ rest, table.Reworks lookahead (top :: rest) (replacement ++ rest)) :
    TurnedInto table lookahead (replacement ++ below) entry := by
  obtain ⟨segment, lower, split, height, some, turned⟩ := turned
  cases segment with
  | nil => exact absurd rfl some
  | cons first rest =>
    obtain ⟨rfl, rfl⟩ := List.cons.inj split
    -- an entry for the top alone would be above the popped stack
    have more : rest ≠ [] := by
      rintro rfl
      have short : entry.2 ≤ lower.length := low
      omega
    exact ⟨replacement ++ rest, lower, by simp, height, by simp [more], turned.tail (step rest)⟩

/-- A symbol on the top that was noted has been turned into itself and more. -/
theorem TurnedInto.repeats {lookahead : Symbol} {height : Nat}
    (turned : TurnedInto table lookahead (top :: below) (top, height)) :
    ∃ segment, Relation.TransGen (table.Reworks lookahead) [top] (top :: segment) := by
  obtain ⟨segment, lower, split, _, some, turned⟩ := turned
  cases segment with
  | nil => exact absurd rfl some
  | cons first rest =>
    obtain ⟨rfl, _⟩ := List.cons.inj split
    exact ⟨rest, turned⟩

/-- The last step was an expansion that put nothing on the stack. -/
def ExpandedToNothing (table : ParseTable) (run : Run) : Prop :=
  ∃ production ∈ table.grammar.productions, production.rhs = [] ∧ ∃ earlier expansion,
    run.steps = earlier ++ [expansion] ∧ expansion.action = ⟨.expand, some production⟩

/-- Every noted expansion is still on the stack, or it has put nothing there by the last step. -/
def Anchored (table : ParseTable) (run : Run) : Prop :=
  ∀ entry ∈ run.configuration.expansions,
    TurnedInto table run.configuration.lookahead run.configuration.stack entry ∨
      (run.configuration.stack.length < entry.2 ∧ run.ExpandedToNothing table)

/-- What is not forgotten with the top is noted for symbols further down. -/
theorem Anchored.replace (anchored : run.Anchored table)
    (stack : run.configuration.stack = top :: below) (replacement : List Symbol)
    (step : ∀ rest, table.Reworks run.configuration.lookahead (top :: rest) (replacement ++ rest)) :
    ∀ entry ∈ run.configuration.pop.expansions,
      TurnedInto table run.configuration.lookahead (replacement ++ below) entry := by
  intro entry member
  obtain ⟨noted, kept⟩ := List.mem_filter.mp member
  have low : entry.2 ≤ below.length := by simpa [stack] using kept
  rcases anchored entry noted with turned | ⟨above, _⟩
  · exact (stack ▸ turned).replace low replacement step
  · rw [stack, List.length_cons] at above
    omega

theorem Anchored.advances (anchored : run.Anchored table)
    (stack : run.configuration.stack = top :: below)
    (advance : run.Advances guarded table top below next) : next.Anchored table := by
  have popped (step : ∀ rest, table.Reworks run.configuration.lookahead (top :: rest) rest) :
      ∀ entry ∈ run.configuration.pop.expansions,
        TurnedInto table run.configuration.lookahead run.configuration.pop.stack entry := by
    simpa [stack] using anchored.replace stack [] step
  cases advance with
  | dropEpsilon empty =>
    subst empty
    exact fun entry member => .inl (popped .dropEpsilon entry member)
  | @expand production kind filled fresh =>
    have step := ParseTable.Reworks.expand kind filled
    intro entry member
    rcases List.mem_cons.mp member with rfl | older
    · by_cases nothing : production.rhs = []
      · refine .inr ⟨by simp [nothing], production, (ParseTable.productionAt_eq_some filled).2,
          nothing, run.steps, _, run.steps_record _, rfl⟩
      · refine .inl ⟨production.rhs, below, by simp [stack], by simp [stack], nothing, .single ?_⟩
        simpa using step []
    · left
      simpa [stack] using anchored.replace stack production.rhs step entry older
  | consume =>
    intro entry member
    exact absurd member List.not_mem_nil
  | skipNonterminal kind vacant =>
    exact fun entry member => .inl (popped (.skipNonterminal kind vacant) entry member)
  | skipLeaf leaf other =>
    exact fun entry member => .inl (popped (.skipLeaf leaf other) entry member)

theorem Anchored.reaches (anchored : run.Anchored table)
    (reached : Reaches guarded table run next) : next.Anchored table :=
  reached.invariant (Anchored table)
    (fun _ _ _ _ stack advance anchored => anchored.advances stack advance) anchored

/-- A symbol that is open repeats itself, or was expanded to nothing by the last step. -/
theorem Anchored.repeats (anchored : run.Anchored table)
    (stack : run.configuration.stack = top :: below)
    (opened : run.configuration.isOpen top = true) :
    (∃ segment, Relation.TransGen (table.Reworks run.configuration.lookahead) [top]
      (top :: segment)) ∨ run.ExpandedToNothing table := by
  obtain ⟨height, noted⟩ := exists_noted_of_isOpen opened
  exact (anchored _ noted).imp (fun turned => (stack ▸ turned).repeats) And.right

/-! ### Without empty right-hand sides -/

/-- Every noted expansion is still on the stack, reworked without input. -/
def Grounded (table : ParseTable) (run : Run) : Prop :=
  ∀ entry ∈ run.configuration.expansions,
    TurnedInto table run.configuration.lookahead run.configuration.stack entry

theorem grounded_initial (start : Symbol) (input : List Symbol) :
    (initial start input).Grounded table := by
  intro entry member
  exact absurd member List.not_mem_nil

theorem Grounded.anchored (grounded : run.Grounded table) : run.Anchored table :=
  fun entry member => .inl (grounded entry member)

section
variable (some : ∀ production ∈ table.grammar.productions, production.rhs ≠ [])
include some

theorem Anchored.grounded (anchored : run.Anchored table) : run.Grounded table := by
  intro entry member
  rcases anchored entry member with turned | ⟨_, production, declared, nothing, _⟩
  · exact turned
  · exact absurd nothing (some production declared)

theorem Grounded.advances (grounded : run.Grounded table)
    (stack : run.configuration.stack = top :: below)
    (advance : run.Advances guarded table top below next) : next.Grounded table :=
  (grounded.anchored.advances stack advance).grounded some

theorem Grounded.reaches (grounded : run.Grounded table)
    (reached : Reaches guarded table run next) : next.Grounded table :=
  (grounded.anchored.reaches reached).grounded some

end

/-- A symbol that is open has been turned into itself and more. -/
theorem Grounded.repeats (grounded : run.Grounded table)
    (stack : run.configuration.stack = top :: below)
    (opened : run.configuration.isOpen top = true) :
    ∃ segment, Relation.TransGen (table.Reworks run.configuration.lookahead) [top]
      (top :: segment) := by
  obtain ⟨height, noted⟩ := exists_noted_of_isOpen opened
  exact (stack ▸ grounded _ noted).repeats

/-! ### Runs that repeat -/

/-- A run follows the rework of its topmost symbols, whatever is below them. -/
theorem follows_reworks {lookahead : Symbol} {after : List Symbol}
    (reworked : Relation.TransGen (table.Reworks lookahead) segment after)
    (seen : run.configuration.lookahead = lookahead)
    (stack : run.configuration.stack = segment ++ below) :
    ∃ later, Relation.TransGen (fun run next => run.step false table = .ok (.inl next)) run later ∧
      later.configuration.stack = after ++ below ∧
      later.configuration.remaining = run.configuration.remaining := by
  -- every step works on the top of the segment, so what is below it stays as it is
  induction reworked with
  | single step =>
    subst seen
    obtain ⟨later, stepped, final, kept⟩ := (step.append_right below).step stack
    exact ⟨later, .single stepped, final, kept⟩
  | tail _ step ih =>
    obtain ⟨middle, reached, half, same⟩ := ih
    have still : middle.configuration.lookahead = lookahead := by
      rw [← seen, Configuration.lookahead, same, Configuration.lookahead]
    subst still
    obtain ⟨later, stepped, final, kept⟩ := (step.append_right below).step half
    exact ⟨later, reached.tail stepped, final, kept.trans same⟩

theorem result?_of_transGen
    (reached : Relation.TransGen (fun run next => run.step guarded table = .ok (.inl next)) run next)
    {limit : Nat} {outcome : Except Error ParseResult}
    (ended : run.result? guarded table (limit + 1) = some outcome) :
    next.result? guarded table limit = some outcome := by
  induction reached with
  | single stepped => rwa [result?_of_step stepped] at ended
  | tail _ stepped ih =>
    cases limit with
    | zero => cases ih
    | succ limit =>
      rw [result?_of_step stepped] at ih
      exact result?_mono ih 1

/-- A symbol that is turned into itself and more without input is worked on forever. -/
theorem result?_eq_none_of_repeats {lookahead : Symbol}
    (repeats : Relation.TransGen (table.Reworks lookahead) [top] (top :: segment)) (limit : Nat)
    (seen : run.configuration.lookahead = lookahead)
    (stack : run.configuration.stack = top :: below) : run.result? false table limit = none := by
  -- after each round the same symbol is on a longer stack, and less of the limit is left
  induction limit generalizing run below with
  | zero => rfl
  | succ limit ih =>
    obtain ⟨later, reached, again, kept⟩ :=
      follows_reworks repeats seen (show run.configuration.stack = [top] ++ below from stack)
    have still : later.configuration.lookahead = lookahead := by
      rw [← seen, Configuration.lookahead, kept, Configuration.lookahead]
    have endless := ih still again
    cases ended : run.result? false table (limit + 1) with
    | none => rfl
    | some outcome =>
      rw [result?_of_transGen reached ended] at endless
      cases endless

/-! ### The guard -/

/-- A run that the guard stops: the symbol on the top is open and has a production. -/
def Stalls (table : ParseTable) (run : Run) : Prop :=
  ∃ top below production, run.configuration.stack = top :: below ∧ top.isNonterminal = true ∧
    table.productionAt top run.configuration.lookahead = .ok (some production) ∧
    run.configuration.isOpen top = true

/-- Elsewhere the guard makes no difference. -/
theorem step_guarded (free : ¬run.Stalls table) : run.step true table = run.step false table := by
  cases stack : run.configuration.stack with
  | nil => rw [step_nil stack, step_nil stack]
  | cons top below =>
    rw [step_cons stack, step_cons stack]
    by_cases kind : top.isNonterminal = true
    · rw [Move.choose_nonterminal kind]
      cases filled : table.productionAt top run.configuration.lookahead with
      | error cause => rfl
      | ok cell =>
        cases cell with
        | none => rfl
        | some production =>
          have closed : run.configuration.isOpen top = false := by
            by_contra opened
            exact free ⟨top, below, production, stack, kind, filled, by simpa using opened⟩
          simp [Except.map, closed]
    · by_cases empty : top = .epsilon
      · subst empty
        rw [Move.choose_epsilon]
        rfl
      · rw [Move.choose_leaf ⟨by simpa using kind, empty⟩]
        by_cases last : below = [] ∧ top = .endOfInput ∧ run.configuration.lookahead = .endOfInput
        · rw [if_pos last]
          rfl
        · rw [if_neg last]
          by_cases same : top = run.configuration.lookahead <;> simp [same, Except.map]

/-- A run that ends without the guard ends with it, and in the same way. -/
theorem Grounded.result?_guarded (grounded : run.Grounded table)
    (some : ∀ production ∈ table.grammar.productions, production.rhs ≠ []) {limit : Nat}
    {outcome : Except Error ParseResult}
    (ended : run.result? false table limit = .some outcome) :
    run.result? true table limit = .some outcome := by
  induction limit generalizing run with
  | zero => cases ended
  | succ limit ih =>
    -- a run that the guard stops would not have ended
    by_cases stalls : run.Stalls table
    · obtain ⟨top, below, production, stack, _, _, opened⟩ := stalls
      obtain ⟨segment, repeats⟩ := grounded.repeats stack opened
      rw [result?_eq_none_of_repeats repeats _ rfl stack] at ended
      cases ended
    · unfold result? at ended ⊢
      rw [step_guarded stalls]
      split
      · rename_i stepped
        simpa only [stepped] using ended
      · rename_i stepped
        simpa only [stepped] using ended
      · rename_i next stepped
        simp only [stepped] at ended
        obtain ⟨top, below, stack, advance⟩ := advances_of_step stepped
        exact ih (grounded.advances some stack advance) ended

end Run

end Predictive
