import Predictive.Proofs.Runs

/-! The books of a run. The trace tells which symbols were taken off the stack and how: those that
were matched are the consumed input, those that were skipped are the tops of the recorded errors,
and the end of input stays at the bottom of the stack until it is skipped itself. -/

set_option autoImplicit false

namespace Predictive

/-- The symbol that a step takes off the stack by a match or because of an error. -/
def ParseStep.removal? (step : ParseStep) : Option (ActionKind × Symbol) :=
  match step.action.kind with
  | .matched => step.stack.head?.map fun top => (.matched, top)
  | .errorSkip => step.stack.head?.map fun top => (.errorSkip, top)
  | _ => none

def removals (trace : List ParseStep) : List (ActionKind × Symbol) :=
  trace.filterMap ParseStep.removal?

/-- The removed symbols in order, the end of input apart. -/
def removedSymbols (trace : List ParseStep) : List Symbol :=
  ((removals trace).map Prod.snd).filter (· ≠ .endOfInput)

/-- The symbols that were removed in one way. -/
def removedBy (kind : ActionKind) (trace : List ParseStep) : List Symbol :=
  ((removals trace).filter (·.1 = kind)).map Prod.snd

/-- The production by which a step replaces the top of the stack. -/
def ParseStep.expansion? (step : ParseStep) : Option Production :=
  if step.action.kind = .expand then step.action.production else none

/-- The productions that were applied, in order. -/
def expansions (trace : List ParseStep) : List Production :=
  trace.filterMap ParseStep.expansion?

/-- What is still to be derived, according to a stack that is read from its top. -/
def pendingSymbols (stack : List Symbol) : List Symbol :=
  withoutEpsilon (stack.filter (· ≠ .endOfInput))

@[simp] theorem removals_append (first rest : List ParseStep) :
    removals (first ++ rest) = removals first ++ removals rest :=
  List.filterMap_append

@[simp] theorem expansions_nil : expansions [] = [] := rfl

@[simp] theorem expansions_append (first rest : List ParseStep) :
    expansions (first ++ rest) = expansions first ++ expansions rest :=
  List.filterMap_append

@[simp] theorem removedSymbols_append (first rest : List ParseStep) :
    removedSymbols (first ++ rest) = removedSymbols first ++ removedSymbols rest := by
  simp [removedSymbols]

@[simp] theorem removedBy_append (kind : ActionKind) (first rest : List ParseStep) :
    removedBy kind (first ++ rest) = removedBy kind first ++ removedBy kind rest := by
  simp [removedBy]

@[simp] theorem pendingSymbols_append (left right : List Symbol) :
    pendingSymbols (left ++ right) = pendingSymbols left ++ pendingSymbols right := by
  simp [pendingSymbols]

theorem pendingSymbols_cons {symbol : Symbol} (visible : symbol ≠ .epsilon) (rest : List Symbol) :
    pendingSymbols (symbol :: rest) =
      [symbol].filter (· ≠ .endOfInput) ++ pendingSymbols rest := by
  unfold pendingSymbols
  by_cases ending : symbol = .endOfInput
  · simp [ending]
  · simp [ending, withoutEpsilon_cons visible]

/-- A symbol that is neither the empty string nor the end of input is to be derived itself. -/
theorem pendingSymbols_visible {symbol : Symbol} (visible : symbol ≠ .epsilon)
    (other : symbol ≠ .endOfInput) (rest : List Symbol) :
    pendingSymbols (symbol :: rest) = symbol :: pendingSymbols rest := by
  simp [pendingSymbols_cons visible, other]

namespace Run

variable (run : Run)

/-- The steps so far, in the order in which they were taken. -/
def steps : List ParseStep :=
  run.trace.reverse

/-- The step that a run notes for an action. -/
def noted (action : Action) : ParseStep :=
  ⟨run.nextNumber, run.configuration.consumed, run.configuration.stack,
    run.configuration.remaining, action⟩

@[simp] theorem steps_record (action : Action) :
    (run.record action).steps = run.steps ++ [run.noted action] := by
  simp [steps, record, noted]

@[simp] theorem steps_moveTo (configuration : Configuration) :
    (run.moveTo configuration).steps = run.steps := rfl

@[simp] theorem steps_skip (table : ParseTable) (top : Symbol) :
    (run.skip table top).steps = run.steps ++ [run.noted ⟨.errorSkip, none⟩] :=
  run.steps_record _

theorem tops_skip (table : ParseTable) (top : Symbol) :
    (run.skip table top).issues.map ParseIssue.top = top :: run.issues.map ParseIssue.top := rfl

@[simp] theorem steps_initial (start : Symbol) (input : List Symbol) :
    (initial start input).steps = [] := rfl

variable {run} {top : Symbol} {below : List Symbol}

theorem removals_matched (stack : run.configuration.stack = top :: below) :
    removals [run.noted ⟨.matched, none⟩] = [(.matched, top)] := by
  simp [removals, ParseStep.removal?, noted, stack]

theorem removals_errorSkip (stack : run.configuration.stack = top :: below) :
    removals [run.noted ⟨.errorSkip, none⟩] = [(.errorSkip, top)] := by
  simp [removals, ParseStep.removal?, noted, stack]

@[simp] theorem removals_epsilon : removals [run.noted ⟨.epsilon, none⟩] = [] := rfl

@[simp] theorem removals_expand (production : Production) :
    removals [run.noted ⟨.expand, some production⟩] = [] := rfl

@[simp] theorem expansions_expand (production : Production) :
    expansions [run.noted ⟨.expand, some production⟩] = [production] := rfl

@[simp] theorem expansions_epsilon : expansions [run.noted ⟨.epsilon, none⟩] = [] := rfl

@[simp] theorem expansions_matched : expansions [run.noted ⟨.matched, none⟩] = [] := rfl

@[simp] theorem expansions_accept : expansions [run.noted ⟨.accept, none⟩] = [] := rfl

@[simp] theorem removals_accept : removals [run.noted ⟨.accept, none⟩] = [] := rfl

end Run

/-- The end of input is the last symbol of a stack and no other. -/
def MarksBottom (stack : List Symbol) : Prop :=
  ∃ body, stack = body ++ [.endOfInput] ∧ .endOfInput ∉ body

theorem MarksBottom.cases {top : Symbol} {below : List Symbol}
    (marked : MarksBottom (top :: below)) :
    (top = .endOfInput ∧ below = []) ∨ (top ≠ .endOfInput ∧ MarksBottom below) := by
  obtain ⟨body, split, clean⟩ := marked
  cases body with
  | nil => exact .inl (by simpa using split)
  | cons first rest =>
    obtain ⟨rfl, rfl⟩ := List.cons.inj split
    simp only [List.mem_cons, not_or] at clean
    exact .inr ⟨fun same => clean.1 same.symm, rest, rfl, clean.2⟩

theorem MarksBottom.below {top : Symbol} {below : List Symbol}
    (marked : MarksBottom (top :: below)) (other : top ≠ .endOfInput) : MarksBottom below := by
  rcases marked.cases with ⟨same, _⟩ | ⟨_, rest⟩
  · exact absurd same other
  · exact rest

theorem MarksBottom.ne_endOfInput {top : Symbol} {below : List Symbol}
    (marked : MarksBottom (top :: below)) (more : below = [] → top ≠ .endOfInput) :
    top ≠ .endOfInput := by
  rcases marked.cases with ⟨ending, nothing⟩ | ⟨other, _⟩
  · exact absurd ending (more nothing)
  · exact other

theorem MarksBottom.append {symbols below : List Symbol} (marked : MarksBottom below)
    (clean : .endOfInput ∉ symbols) : MarksBottom (symbols ++ below) := by
  obtain ⟨body, rfl, rest⟩ := marked
  exact ⟨symbols ++ body, by simp, by simp [clean, rest]⟩

/-- How a run stands to the input that it was started on. -/
structure Run.Accounted (input : List Symbol) (run : Run) : Prop where
  read : ∃ rest, run.configuration.remaining = rest ++ [.endOfInput] ∧
    run.configuration.consumed.reverse ++ rest = input
  bottom : run.configuration.stack = [] ∨
    (MarksBottom run.configuration.stack ∧ .endOfInput ∉ (removals run.steps).map Prod.snd)
  matched : removedBy .matched run.steps = run.configuration.consumed.reverse
  skipped : removedBy .errorSkip run.steps = run.issues.reverse.map ParseIssue.top

namespace Run

theorem Accounted.initial {start : Symbol} (kind : start.isNonterminal = true)
    (input : List Symbol) : (initial start input).Accounted input where
  read := ⟨input, rfl, rfl⟩
  bottom := by
    have other := Symbol.ne_endOfInput_of_isNonterminal kind
    exact .inr ⟨⟨[start], rfl, by simpa using other.symm⟩, by simp [removals]⟩
  matched := rfl
  skipped := rfl

variable {guarded : Bool} {table : ParseTable} {run next : Run} {input : List Symbol}
  {top : Symbol} {below : List Symbol}

theorem Accounted.marked (accounted : run.Accounted input)
    (stack : run.configuration.stack = top :: below) :
    MarksBottom (top :: below) ∧ .endOfInput ∉ (removals run.steps).map Prod.snd := by
  rcases accounted.bottom with empty | ⟨marked, clean⟩
  · rw [stack] at empty
    cases empty
  · rw [stack] at marked
    exact ⟨marked, clean⟩

theorem Accounted.skip (accounted : run.Accounted input)
    (stack : run.configuration.stack = top :: below) : (run.skip table top).Accounted input where
  read := accounted.read
  bottom := by
    obtain ⟨marked, clean⟩ := accounted.marked stack
    rw [configuration_skip, Configuration.stack_pop, stack, List.tail_cons]
    rcases marked.cases with ⟨_, nothing⟩ | ⟨other, rest⟩
    · exact .inl nothing
    · refine .inr ⟨rest, ?_⟩
      simpa [removals_errorSkip stack] using ⟨by simpa using clean, fun same => other same.symm⟩
  matched := by
    simpa [removedBy, removals_errorSkip stack] using accounted.matched
  skipped := by
    have before := accounted.skipped
    rw [List.map_reverse] at before ⊢
    rw [tops_skip, List.reverse_cons, ← before]
    simp [removedBy, removals_errorSkip stack]

theorem Accounted.consume (accounted : run.Accounted input)
    (stack : run.configuration.stack = top :: below)
    (same : top = run.configuration.lookahead) (more : below = [] → top ≠ .endOfInput) :
    ((run.record ⟨.matched, none⟩).moveTo run.configuration.consume).Accounted input := by
  obtain ⟨marked, clean⟩ := accounted.marked stack
  obtain ⟨rest, remaining, whole⟩ := accounted.read
  -- the end of input is only at the bottom, where it is accepted and not consumed
  have other := marked.ne_endOfInput more
  cases rest with
  | nil => exact absurd same (by simpa [Configuration.lookahead, remaining] using other)
  | cons first rest =>
    have lookahead : run.configuration.lookahead = first := by
      simp [Configuration.lookahead, remaining]
    have before := accounted.matched
    unfold removedBy at before
    refine ⟨⟨rest, ?_, ?_⟩, .inr ⟨?_, ?_⟩, ?_, ?_⟩
    · simp [remaining]
    · simpa [lookahead] using whole
    · simpa [stack] using marked.below other
    · simpa [removals_matched stack] using ⟨by simpa using clean, fun same => other same.symm⟩
    · simp [removedBy, removals_matched stack, before, same]
    · simpa [removedBy, removals_matched stack] using accounted.skipped

theorem Accounted.advances (accounted : run.Accounted input)
    (stack : run.configuration.stack = top :: below)
    (advance : run.Advances guarded table top below next) : next.Accounted input := by
  obtain ⟨marked, clean⟩ := accounted.marked stack
  cases advance with
  | dropEpsilon empty =>
    have other : top ≠ .endOfInput := by simp [empty, Symbol.epsilon, Symbol.endOfInput]
    refine ⟨accounted.read, .inr ⟨by simpa [stack] using marked.below other, ?_⟩, ?_, ?_⟩
    · simpa using clean
    · simpa [removedBy] using accounted.matched
    · simpa [removedBy] using accounted.skipped
  | @expand production kind filled fresh =>
    have other := Symbol.ne_endOfInput_of_isNonterminal kind
    obtain ⟨_, declared⟩ := ParseTable.productionAt_eq_some filled
    have unmarked : .endOfInput ∉ production.rhs := fun member =>
      Grammar.kind_ne_endOfInput declared member rfl
    refine ⟨accounted.read, .inr ⟨?_, ?_⟩, ?_, ?_⟩
    · simpa [stack] using (marked.below other).append unmarked
    · simpa using clean
    · simpa [removedBy] using accounted.matched
    · simpa [removedBy] using accounted.skipped
  | consume leaf same more => exact accounted.consume stack same more
  | skipNonterminal => exact accounted.skip stack
  | skipLeaf => exact accounted.skip stack

theorem Accounted.reaches (accounted : run.Accounted input)
    (reached : Reaches guarded table run next) : next.Accounted input :=
  reached.invariant (Accounted input)
    (fun _ _ _ _ stack advance accounted => accounted.advances stack advance) accounted

/-- Where the input is accepted, all of it was consumed. -/
theorem Accounted.consumed_of_last (accounted : run.Accounted input)
    (clean : .endOfInput ∉ input) (ending : run.configuration.lookahead = .endOfInput) :
    run.configuration.consumed.reverse = input := by
  obtain ⟨rest, remaining, whole⟩ := accounted.read
  cases rest with
  | nil => simpa using whole
  | cons first rest =>
    have first_eq : first = .endOfInput := by
      simpa [Configuration.lookahead, remaining] using ending
    exact absurd (by rw [← whole, first_eq]; simp) clean

/-! ### What is never recorded -/

theorem trace_accepted (run : Run) :
    run.accepted.trace = run.steps ++ [run.noted ⟨.accept, none⟩] := by
  unfold accepted finish
  exact run.steps_record _

/-- An advance is never recorded as a stall. -/
theorem Reaches.unstalled (reached : Reaches guarded table run next)
    (fresh : ∀ step ∈ run.steps, step.action.kind ≠ .stall) :
    ∀ step ∈ next.steps, step.action.kind ≠ .stall := by
  refine reached.invariant (fun run => ∀ step ∈ run.steps, step.action.kind ≠ .stall) ?_ fresh
  intro run top below next _ advance before
  cases advance <;> simpa [or_imp, forall_and, noted] using before

/-- A parse without the guard is recorded without a stall. -/
theorem unstalled_of_result? {limit : Nat} {result : ParseResult}
    (fresh : ∀ step ∈ run.steps, step.action.kind ≠ .stall)
    (ended : run.result? false table limit = some (.ok result)) :
    ∀ step ∈ result.trace, step.action.kind ≠ .stall := by
  obtain ⟨last, reached, ⟨cause, _, failed⟩ | ⟨other, stepped, same⟩⟩ :=
    exists_last_of_result? ended
  · cases failed
  · cases same
    have kept := reached.unstalled fresh
    cases ends_of_step stepped with
    | exhausted => exact kept
    | accepted =>
      rw [trace_accepted]
      simpa [or_imp, forall_and, noted] using kept
    | stalled _ _ _ strict => cases strict

end Run

end Predictive
