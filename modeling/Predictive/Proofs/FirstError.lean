import Predictive.Proofs.Chronicle
import Predictive.Proofs.Recognition

/-! Where an input goes wrong. Over a table without conflicts the first error is reported at the
first symbol that no sentential form has behind the symbols before it. Up to there a run expects
whatever the start symbol can still derive: what it has on its stack derives every form that
continues the consumed input with the lookahead. -/

set_option autoImplicit false

namespace Predictive

namespace Grammar

variable {grammar : Grammar}

/-- Some sentential form begins with these symbols. -/
def Viable (grammar : Grammar) (front : List Symbol) : Prop :=
  ∃ rest, grammar.Derives [grammar.start] (front ++ rest)

/-- The symbols before a position still begin a sentential form. With the symbol there they do not,
or there is none and they are no sentential form themselves. -/
structure GoesWrongAt (grammar : Grammar) (input : List Symbol) (position : Nat) : Prop where
  inside : position ≤ input.length
  viable : grammar.Viable (input.take position)
  longer : position < input.length → ¬grammar.Viable (input.take (position + 1))
  whole : position = input.length → ¬grammar.Derives [grammar.start] input

/-- Up to the first error, and where it occurs, what was consumed begins a sentential form. -/
def KeepsViable (grammar : Grammar) (steps : List ParseStep) : Prop :=
  ∀ before step after, steps = before ++ step :: after →
    (∀ earlier ∈ before, earlier.isError = false) → grammar.Viable step.consumed.reverse

theorem KeepsViable.nil : grammar.KeepsViable [] := by
  intro before step after split
  simp at split

theorem KeepsViable.concat {steps : List ParseStep} {last : ParseStep}
    (keeps : grammar.KeepsViable steps)
    (viable : (∀ step ∈ steps, step.isError = false) → grammar.Viable last.consumed.reverse) :
    grammar.KeepsViable (steps ++ [last]) := by
  intro before step after split clean
  rcases List.eq_nil_or_concat after with rfl | ⟨middle, final, rfl⟩
  · obtain ⟨rfl, same⟩ := List.append_inj' split rfl
    obtain rfl : last = step := by simpa using same
    exact viable clean
  · refine keeps before step middle ?_ clean
    have same : steps ++ [last] = (before ++ step :: middle) ++ [final] := by simpa using split
    exact (List.append_inj' same rfl).1

end Grammar

namespace Run

variable {guarded : Bool} {table : ParseTable} {run next : Run} {input : List Symbol}
  {top : Symbol} {below : List Symbol}

/-- Before the first error, what was derived is what was consumed and what is on the stack. -/
theorem Accounted.derived_eq (accounted : run.Accounted input) (clean : .endOfInput ∉ input)
    (correct : run.issues = []) :
    run.derived = run.configuration.consumed.reverse ++ pendingSymbols run.configuration.stack := by
  obtain ⟨rest, _, whole⟩ := accounted.read
  have skipped : removedBy .errorSkip run.steps = [] := by rw [accounted.skipped, correct]; rfl
  have removed : removedSymbols run.steps = run.configuration.consumed.reverse := by
    unfold removedSymbols
    rw [map_removals_of_skipped_nil skipped, accounted.matched, List.filter_eq_self.mpr]
    intro symbol member
    have read : symbol ∈ input := whole ▸ List.mem_append_left rest member
    simpa using fun same : symbol = .endOfInput => clean (same ▸ read)
  unfold derived
  rw [removed]

/-- Whatever can still be derived behind the consumed input, beginning as the rest of the input
does, can be derived from the stack. -/
def Expects (table : ParseTable) (run : Run) : Prop :=
  ∀ rest word, run.configuration.remaining = rest ++ [.endOfInput] → word.head? = rest.head? →
    table.grammar.Derives [table.grammar.start] (run.configuration.consumed.reverse ++ word) →
    table.grammar.Derives (pendingSymbols run.configuration.stack) word

/-- What a run over a table without conflicts keeps on its way. -/
structure Foresees (table : ParseTable) (input : List Symbol) (run : Run) : Prop where
  accounted : run.Accounted input
  issues : run.issues.reverse = table.issuesOf run.steps
  derived : table.grammar.Derives [table.grammar.start] run.derived
  expects : run.issues = [] → run.Expects table
  first : ∀ issue ∈ run.issues.getLast?, ∃ position : Nat,
    issue.position = position ∧ table.grammar.GoesWrongAt input position
  viable : table.grammar.KeepsViable run.steps

theorem foresees_initial (table : ParseTable) (input : List Symbol) :
    (Run.initial table.grammar.start input).Foresees table input where
  accounted := .initial (Grammar.isNonterminal_of_mem table.grammar.start_mem) input
  issues := rfl
  derived := by
    rw [derived_initial (Grammar.isNonterminal_of_mem table.grammar.start_mem)]
  expects := by
    intro _ rest word _ _ derived
    have kind := Grammar.isNonterminal_of_mem table.grammar.start_mem
    have pending : pendingSymbols [table.grammar.start, .endOfInput] = [table.grammar.start] :=
      pendingSymbols_visible (Symbol.ne_epsilon_of_isNonterminal kind)
        (Symbol.ne_endOfInput_of_isNonterminal kind) [.endOfInput]
    exact pending.symm ▸ derived
  first := by simp [initial]
  viable := .nil

namespace Foresees

theorem reached (foresees : run.Foresees table input) (clean : .endOfInput ∉ input)
    (correct : run.issues = []) :
    table.grammar.Derives [table.grammar.start]
      (run.configuration.consumed.reverse ++ pendingSymbols run.configuration.stack) := by
  rw [← foresees.accounted.derived_eq clean correct]
  exact foresees.derived

/-- The trace with the step that is taken next. -/
theorem noted (foresees : run.Foresees table input) (clean : .endOfInput ∉ input)
    (action : Action) : table.grammar.KeepsViable (run.steps ++ [run.noted action]) := by
  refine foresees.viable.concat fun faultless => ?_
  have correct : run.issues = [] := by
    have none : run.issues.reverse = [] := by
      rw [foresees.issues]
      unfold ParseTable.issuesOf
      rw [List.filter_eq_nil_iff.mpr fun step member => by simp [faultless step member],
        List.map_nil]
    simpa using none
  exact ⟨_, foresees.reached clean correct⟩

section
variable (foresees : run.Foresees table input) (deterministic : table.Deterministic)
  (clean : ∀ symbol ∈ input, symbol.IsLeaf ∧ symbol ≠ .endOfInput) (correct : run.issues = [])
  (stack : run.configuration.stack = top :: below)
include foresees deterministic clean correct stack

/-- A non-terminal on the top is replaced as every form demands that begins with the lookahead. -/
theorem expansion (kind : top.isNonterminal = true) {rest word : List Symbol}
    (remaining : run.configuration.remaining = rest ++ [.endOfInput])
    (begins : word.head? = rest.head?)
    (derived : table.grammar.Derives (pendingSymbols (top :: below)) word) :
    ∃ production ∈ table.grammar.productions,
      table.productionAt top run.configuration.lookahead = .ok (some production) ∧
      table.grammar.Derives (withoutEpsilon production.rhs ++ pendingSymbols below) word := by
  have leaves : ∀ symbol ∈ word.head?, symbol.IsLeaf ∧ symbol ≠ .endOfInput := by
    obtain ⟨other, unread, whole⟩ := foresees.accounted.read
    obtain rfl : rest = other := List.append_cancel_right (remaining.symm.trans unread)
    rw [begins]
    intro symbol member
    exact clean symbol (whole ▸ List.mem_append_right _ (List.mem_of_head? member))
  have pending : pendingSymbols (top :: below) = top :: pendingSymbols below :=
    pendingSymbols_visible (Symbol.ne_epsilon_of_isNonterminal kind)
      (Symbol.ne_endOfInput_of_isNonterminal kind) below
  have gone : word.head? ≠ some top := by
    intro same
    have leaf := (leaves top same).1.1
    simp [kind] at leaf
  rw [pending] at derived
  obtain ⟨production, declared, rfl, onward⟩ := derived.of_nonterminal_cons gone
  have before := foresees.reached (fun member => (clean _ member).2 rfl) correct
  rw [stack, pending] at before
  have predicts := Grammar.predicts_of_derives before onward leaves
  rw [List.headD_eq_head?_getD, begins, ← List.headD_eq_head?_getD,
    ← lookahead_of_remaining remaining] at predicts
  exact ⟨production, declared, deterministic.productionAt_of_predicts declared predicts, onward⟩

/-- Where the first symbol is skipped, no form continues the consumed input as the input does. -/
theorem unexpected (mismatch : table.Mismatches top run.configuration.lookahead)
    {rest word : List Symbol} (remaining : run.configuration.remaining = rest ++ [.endOfInput])
    (begins : word.head? = rest.head?) :
    ¬table.grammar.Derives [table.grammar.start]
      (run.configuration.consumed.reverse ++ word) := by
  intro continued
  have pending := foresees.expects correct rest word remaining begins continued
  rw [stack] at pending
  cases mismatch with
  | vacant kind empty =>
    obtain ⟨production, _, filled, _⟩ :=
      foresees.expansion deterministic clean correct stack kind remaining begins pending
    rw [filled] at empty
    cases empty
  | other leaf different =>
    apply different
    rw [lookahead_of_remaining remaining, List.headD_eq_head?_getD, ← begins]
    rcases (foresees.accounted.marked stack).1.cases with ⟨rfl, rfl⟩ | ⟨other, _⟩
    · rw [pending.eq_nil_of_nil]
      rfl
    · rw [pendingSymbols_visible leaf.2 other] at pending
      obtain ⟨tail, rfl, _⟩ := pending.of_leaf_cons leaf.1
      rfl

theorem goesWrongAt (mismatch : table.Mismatches top run.configuration.lookahead) :
    table.grammar.GoesWrongAt input run.configuration.consumed.length := by
  obtain ⟨rest, remaining, whole⟩ := foresees.accounted.read
  have wrong (word : List Symbol) (begins : word.head? = rest.head?) :=
    foresees.unexpected deterministic clean correct stack mismatch remaining begins
  have length : run.configuration.consumed.reverse.length = run.configuration.consumed.length :=
    List.length_reverse
  refine ⟨?_, ?_, ?_, ?_⟩
  · simp [← whole]
  · rw [← whole, List.take_left' length]
    exact ⟨_, foresees.reached (fun member => (clean _ member).2 rfl) correct⟩
  · rintro less ⟨after, derived⟩
    cases rest with
    | nil => simp [← whole] at less
    | cons symbol rest =>
      refine wrong (symbol :: after) rfl ?_
      rw [← whole, ← length, List.take_length_add_append] at derived
      simpa using derived
  · intro all derived
    cases rest with
    | nil => exact wrong [] rfl (by simpa [whole] using derived)
    | cons symbol rest => simp [← whole] at all

/-- As long as there is no error, what is expected stays expected. -/
theorem expects_advances (advance : run.Advances guarded table top below next)
    (faultless : next.issues = []) : next.Expects table := by
  intro rest word remaining begins continued
  cases advance with
  | dropEpsilon empty =>
    have pending := foresees.expects correct rest word remaining begins continued
    simpa [stack, empty] using pending
  | @expand production kind filled fresh =>
    have pending := foresees.expects correct rest word remaining begins continued
    rw [stack] at pending
    obtain ⟨other, declared, same, onward⟩ :=
      foresees.expansion deterministic clean correct stack kind remaining begins pending
    rw [filled] at same
    cases same
    simpa [stack, pendingSymbols_rhs declared] using onward
  | consume leaf same more =>
    obtain ⟨unread, whole, _⟩ := foresees.accounted.read
    have other := (foresees.accounted.marked stack).1.ne_endOfInput more
    obtain rfl : unread = top :: rest := by
      rw [lookahead_of_remaining whole] at same
      cases unread with
      | nil => exact absurd same other
      | cons first others =>
        obtain rfl : top = first := same
        simpa [whole] using remaining
    have pending := foresees.expects correct (top :: rest) (top :: word) whole rfl
      (by simpa [← same] using continued)
    rw [stack, pendingSymbols_visible leaf.2 other] at pending
    obtain ⟨tail, split, onward⟩ := pending.of_leaf_cons leaf.1
    obtain rfl : word = tail := (List.cons.inj split).2
    simpa [stack] using onward
  | skipNonterminal => simp [skip] at faultless
  | skipLeaf => simp [skip] at faultless

end

/-- What is known of the first error stays as it is when another symbol is skipped. -/
theorem first_skip (foresees : run.Foresees table input) (deterministic : table.Deterministic)
    (clean : ∀ symbol ∈ input, symbol.IsLeaf ∧ symbol ≠ .endOfInput)
    (stack : run.configuration.stack = top :: below)
    (mismatch : table.Mismatches top run.configuration.lookahead) :
    ∀ issue ∈ (run.skip table top).issues.getLast?, ∃ position : Nat,
      issue.position = position ∧ table.grammar.GoesWrongAt input position := by
  intro issue member
  cases recorded : run.issues with
  | nil =>
    obtain rfl : _ = issue := by simpa [skip, recorded] using member
    exact ⟨_, rfl, foresees.goesWrongAt deterministic clean recorded stack mismatch⟩
  | cons latest earlier =>
    refine foresees.first issue ?_
    simpa [skip, recorded] using member

theorem advances (foresees : run.Foresees table input) (deterministic : table.Deterministic)
    (clean : ∀ symbol ∈ input, symbol.IsLeaf ∧ symbol ≠ .endOfInput)
    (stack : run.configuration.stack = top :: below)
    (advance : run.Advances guarded table top below next) : next.Foresees table input := by
  obtain ⟨action, records⟩ := advance.recorded foresees.accounted stack
  refine ⟨foresees.accounted.advances stack advance, ?_, ?_, ?_, ?_, ?_⟩
  · rw [records.issues, records.steps, foresees.issues, ParseTable.issuesOf_append]
  · exact foresees.derived.trans (derives_of_advances deterministic.faithful stack advance)
  · intro faultless
    have correct : run.issues = [] := by
      have none := records.issues
      rw [faultless] at none
      simpa using (List.append_eq_nil_iff.mp none.symm).1
    exact foresees.expects_advances deterministic clean correct stack advance faultless
  · cases advance with
    | skipNonterminal kind vacant =>
      exact foresees.first_skip deterministic clean stack (.vacant kind vacant)
    | skipLeaf leaf other => exact foresees.first_skip deterministic clean stack (.other leaf other)
    | _ => exact foresees.first
  · rw [records.steps]
    exact foresees.noted (fun member => (clean _ member).2 rfl) action

theorem reaches (foresees : run.Foresees table input) (deterministic : table.Deterministic)
    (clean : ∀ symbol ∈ input, symbol.IsLeaf ∧ symbol ≠ .endOfInput)
    (reached : Reaches guarded table run next) : next.Foresees table input :=
  reached.invariant (Foresees table input)
    (fun _ _ _ _ stack advance foresees => foresees.advances deterministic clean stack advance)
    foresees

/-- What a run knows of the first error, its result tells. -/
theorem ends (foresees : run.Foresees table input) (clean : .endOfInput ∉ input)
    {result : ParseResult} (ends : run.Ends guarded table result) :
    (∀ issue ∈ result.issues.head?, ∃ position : Nat,
      issue.position = position ∧ table.grammar.GoesWrongAt input position) ∧
    table.grammar.KeepsViable result.trace := by
  have first : ∀ issue ∈ run.issues.reverse.head?, ∃ position : Nat,
      issue.position = position ∧ table.grammar.GoesWrongAt input position := by
    rw [List.head?_reverse]
    exact foresees.first
  cases ends with
  | exhausted => exact ⟨first, foresees.viable⟩
  | accepted =>
    rw [trace_accepted]
    exact ⟨first, foresees.noted clean _⟩
  | @stalled _ _ production =>
    have viable := foresees.noted clean ⟨.stall, some production⟩
    rw [← steps_record] at viable
    exact ⟨first, viable⟩

end Foresees

end Run

namespace Analysis

/-- A parse over a table without conflicts has its first error where the input goes wrong, at the
first symbol or at the end, and up to there it consumes only what begins a sentential form. -/
theorem first_error_position_exact {rules : List Rule} {start : Option String}
    {policy : NamePolicy} {grammar : Grammar}
    (built : Grammar.ofRules rules start policy = .ok grammar)
    (clean : (Analysis.new grammar .fixedPoint).isLL1 = true) (names : List String)
    (free : ∀ name ∈ names, Symbol.isReservedName name = false) :
    ∃ result : ParseResult,
      (∃ limit,
        (Analysis.new grammar .fixedPoint).table.parseNames? limit names = some (.ok result)) ∧
      (∀ issue ∈ result.issues.head?, ∃ position : Nat, issue.position = position ∧
        grammar.GoesWrongAt (names.map Symbol.terminal) position) ∧
      grammar.KeepsViable result.trace := by
  unfold Analysis.isLL1 at clean
  rw [Analysis.table_new] at clean ⊢
  have deterministic := ParseTable.deterministic_of_isLL1 clean
  obtain ⟨limit, result, _, parsed⟩ :=
    deterministic.exists_parse (Grammar.rhs_ne_nil_of_ofRules built) free
  obtain ⟨_, last, reached, ends⟩ := ParseTable.exists_last_of_parseNames? parsed
  have foresees := (Run.foresees_initial (grammar.parseTable .fixedPoint)
    (names.map Symbol.terminal)).reaches deterministic clean_of_mem_terminals reached
  exact ⟨result, ⟨limit, parsed⟩,
    foresees.ends (fun member => (clean_of_mem_terminals _ member).2 rfl) ends⟩

/-- Two letters without a sum between them go wrong at the second. -/
theorem first_error_position_exact_sum :
    Grammar.ofRules sumRules none {} = .ok sumSample ∧
      (Analysis.new sumSample .fixedPoint).isLL1 = true ∧
      ∃ result : ParseResult,
        (∃ limit, (Analysis.new sumSample .fixedPoint).table.parseNames? limit ["a", "a"] =
          some (.ok result)) ∧
        (∀ issue ∈ result.issues.head?, ∃ position : Nat, issue.position = position ∧
          sumSample.GoesWrongAt [.terminal "a", .terminal "a"] position) ∧
        sumSample.KeepsViable result.trace := by
  have built : Grammar.ofRules sumRules none {} = .ok sumSample := by cbv
  have clean : (Analysis.new sumSample .fixedPoint).isLL1 = true := by decide +kernel
  exact ⟨built, clean, first_error_position_exact built clean ["a", "a"] (by decide)⟩

end Analysis

end Predictive
