import Predictive.Proofs.Termination

/-! What a parse records, over any table. Every step of the trace is taken from the configuration to
which the step before it led, and the errors are the steps by which a symbol was skipped. The last
step decides the verdict: an accepted input, a stall, or an end of input that was skipped before
the input was read. -/

set_option autoImplicit false

namespace Predictive

/-- A symbol on the top of the stack has no use for the lookahead. -/
inductive ParseTable.Mismatches (table : ParseTable) (top lookahead : Symbol) : Prop where
  | vacant (kind : top.isNonterminal = true) (empty : table.productionAt top lookahead = .ok none)
  | other (leaf : top.IsLeaf) (different : top ≠ lookahead)

namespace ParseStep

def isError (step : ParseStep) : Bool :=
  step.action.kind = .errorSkip

/-- The consumed symbols, the stack and the rest of the input to which the action of a step leads. -/
inductive LeadsTo (table : ParseTable) :
    ParseStep → List Symbol → List Symbol → List Symbol → Prop where
  | dropEpsilon (number : Int) (consumed below remaining : List Symbol) :
      LeadsTo table ⟨number, consumed, .epsilon :: below, remaining, ⟨.epsilon, none⟩⟩
        consumed below remaining
  | expand (number : Int) (consumed below rest : List Symbol) {top lookahead : Symbol}
      {production : Production} (kind : top.isNonterminal = true)
      (filled : table.productionAt top lookahead = .ok (some production)) :
      LeadsTo table
        ⟨number, consumed, top :: below, lookahead :: rest, ⟨.expand, some production⟩⟩
        consumed (production.rhs ++ below) (lookahead :: rest)
  | consume (number : Int) (consumed below rest : List Symbol) {symbol : Symbol}
      (leaf : symbol.IsLeaf) (other : symbol ≠ .endOfInput) :
      LeadsTo table ⟨number, consumed, symbol :: below, symbol :: rest, ⟨.matched, none⟩⟩
        (symbol :: consumed) below rest
  | skip (number : Int) (consumed below rest : List Symbol) {top lookahead : Symbol}
      (mismatch : table.Mismatches top lookahead) :
      LeadsTo table ⟨number, consumed, top :: below, lookahead :: rest, ⟨.errorSkip, none⟩⟩
        consumed below (lookahead :: rest)

/-- One step is taken from where another one led. -/
def LeadsInto (table : ParseTable) (step next : ParseStep) : Prop :=
  step.LeadsTo table next.consumed next.stack next.remaining

/-- A step is taken somewhere in its input, with the end of input only at the bottom of the stack,
where it is never matched. -/
structure Placed (input : List Symbol) (step : ParseStep) : Prop where
  whole : step.consumed.reverse ++ step.remaining = input ++ [.endOfInput]
  inside : step.consumed.length ≤ input.length
  bottom : MarksBottom step.stack
  unmatched : step.action.kind = .matched → step.stack.head? ≠ some .endOfInput

variable {table : ParseTable} {step : ParseStep} {consumed stack remaining : List Symbol}

theorem LeadsTo.unmatched (leads : step.LeadsTo table consumed stack remaining)
    (matched : step.action.kind = .matched) : step.stack.head? ≠ some .endOfInput := by
  cases leads with
  | consume number consumed below rest leaf other => simpa using other
  | _ => cases matched

/-- Only a step that skips a symbol can leave nothing on the stack. -/
theorem LeadsTo.skipped (leads : step.LeadsTo table consumed [] remaining)
    (bottom : MarksBottom step.stack) :
    step.action.kind = .errorSkip ∧ step.stack = [.endOfInput] ∧
      step.remaining.head? ≠ some .endOfInput := by
  have alone : ∀ {top : Symbol}, MarksBottom [top] → top = .endOfInput := by
    intro top marked
    rcases marked.cases with ⟨same, _⟩ | ⟨_, body, split, _⟩
    · exact same
    · simp at split
  generalize same : ([] : List Symbol) = below at leads
  cases leads with
  | dropEpsilon =>
    subst same
    exact absurd (alone bottom) (by decide)
  | @expand _ _ below _ top _ production kind =>
    obtain ⟨_, rfl⟩ := List.append_eq_nil_iff.mp same.symm
    rw [alone bottom] at kind
    cases kind
  | consume _ _ _ _ _ other =>
    subst same
    exact absurd (alone bottom) other
  | skip _ _ _ _ mismatch =>
    subst same
    obtain rfl := alone bottom
    refine ⟨rfl, rfl, ?_⟩
    cases mismatch with
    | vacant kind => cases kind
    | other _ other => simpa using other.symm

end ParseStep

namespace ParseTable

variable (table : ParseTable)

/-- The error that is reported for a step. -/
def issueOf (step : ParseStep) : ParseIssue :=
  let top := step.stack.headD .endOfInput
  let lookahead := step.remaining.headD .endOfInput
  let expected := table.alternatives top
  ⟨step.number, step.consumed.length, top, lookahead, expected,
    mismatchMessage top lookahead expected⟩

def issuesOf (trace : List ParseStep) : List ParseIssue :=
  (trace.filter ParseStep.isError).map table.issueOf

@[simp] theorem issuesOf_nil : table.issuesOf [] = [] := rfl

@[simp] theorem issuesOf_append (first rest : List ParseStep) :
    table.issuesOf (first ++ rest) = table.issuesOf first ++ table.issuesOf rest := by
  simp [issuesOf]

theorem issuesOf_of_ne {step : ParseStep} (other : step.action.kind ≠ .errorSkip) :
    table.issuesOf [step] = [] := by
  simp [issuesOf, ParseStep.isError, other]

end ParseTable

/-! ### Traces -/

/-- The trace of a parse of some input: it starts at the beginning, its steps are numbered from one,
and each is taken from where the one before it led. -/
structure Chronicle (table : ParseTable) (input : List Symbol) (steps : List ParseStep) : Prop where
  begins : ∀ first ∈ steps.head?, first.consumed = [] ∧
    first.stack = [table.grammar.start, .endOfInput] ∧ first.remaining = input ++ [.endOfInput]
  numbered : steps.map ParseStep.number = (List.range steps.length).map fun index => (index : Int) + 1
  linked : steps.IsChain (ParseStep.LeadsInto table)
  placed : ∀ step ∈ steps, step.Placed input

namespace Chronicle

variable {table : ParseTable} {input : List Symbol} {steps : List ParseStep} {step : ParseStep}

theorem nil : Chronicle table input [] where
  begins := by simp
  numbered := rfl
  linked := .nil
  placed := by simp

theorem concat (chronicle : Chronicle table input steps)
    (begins : steps = [] → step.consumed = [] ∧
      step.stack = [table.grammar.start, .endOfInput] ∧ step.remaining = input ++ [.endOfInput])
    (number : step.number = steps.length + 1)
    (linked : ∀ last ∈ steps.getLast?, last.LeadsInto table step) (placed : step.Placed input) :
    Chronicle table input (steps ++ [step]) where
  begins := by
    cases steps with
    | nil => simpa using begins rfl
    | cons first rest => exact chronicle.begins
  numbered := by
    simp [List.range_succ, chronicle.numbered, number]
  linked := by
    refine List.isChain_append.mpr ⟨chronicle.linked, List.isChain_singleton step, ?_⟩
    intro last member first same
    obtain rfl : step = first := by simpa using same
    exact linked last member
  placed := by
    simpa [or_imp, forall_and] using ⟨chronicle.placed, placed⟩

end Chronicle

/-! ### Runs -/

namespace Run

variable {guarded : Bool} {table : ParseTable} {run next : Run} {input : List Symbol}
  {top : Symbol} {below : List Symbol}

@[simp] theorem action_noted (action : Action) : (run.noted action).action = action := rfl

theorem nextNumber_eq (chronicle : Chronicle table input run.steps) :
    run.nextNumber = run.steps.length + 1 := by
  have numbered := chronicle.numbered
  unfold steps at numbered ⊢
  unfold nextNumber
  cases recorded : run.trace with
  | nil => rfl
  | cons last earlier =>
    rw [recorded] at numbered
    simp [List.range_succ] at numbered
    simp [numbered.2]

theorem Accounted.unread (accounted : run.Accounted input) :
    ∃ lookahead rest, run.configuration.remaining = lookahead :: rest ∧
      run.configuration.lookahead = lookahead := by
  obtain ⟨rest, remaining, _⟩ := accounted.read
  cases rest with
  | nil => exact ⟨_, _, remaining, by simp [Configuration.lookahead, remaining]⟩
  | cons first rest => exact ⟨_, _, remaining, by simp [Configuration.lookahead, remaining]⟩

/-- Every step is taken somewhere in the input. -/
theorem Accounted.placed (accounted : run.Accounted input)
    (stack : run.configuration.stack = top :: below) {action : Action}
    (unmatched : action.kind = .matched → top ≠ .endOfInput) :
    (run.noted action).Placed input := by
  obtain ⟨rest, remaining, whole⟩ := accounted.read
  refine ⟨?_, ?_, ?_, ?_⟩
  · simp [noted, remaining, ← whole]
  · simp [noted, ← whole]
  · simpa [noted, stack] using (accounted.marked stack).1
  · simpa [noted, stack] using unmatched

/-- One step is recorded on the way to the next run: it leads there, it is not a last one, and it is
reported as an error if it skips a symbol. -/
structure Records (table : ParseTable) (run next : Run) (action : Action) : Prop where
  steps : next.steps = run.steps ++ [run.noted action]
  early : action.kind ≠ .accept ∧ action.kind ≠ .stall
  leads : (run.noted action).LeadsTo table next.configuration.consumed next.configuration.stack
    next.configuration.remaining
  issues : next.issues.reverse = run.issues.reverse ++ table.issuesOf [run.noted action]

theorem Advances.recorded (accounted : run.Accounted input)
    (stack : run.configuration.stack = top :: below)
    (advance : run.Advances guarded table top below next) :
    ∃ action, run.Records table next action := by
  obtain ⟨lookahead, rest, remaining, seen⟩ := accounted.unread
  have noted_eq (action : Action) : run.noted action =
      ⟨run.nextNumber, run.configuration.consumed, top :: below, lookahead :: rest, action⟩ := by
    simp [noted, stack, remaining]
  have skips (mismatch : table.Mismatches top lookahead) :
      run.Records table (run.skip table top) ⟨.errorSkip, none⟩ := by
    refine ⟨by simp, by simp, ?_, ?_⟩
    · rw [noted_eq]
      simpa [stack, remaining] using .skip _ _ _ _ mismatch
    · simp [skip, ParseTable.issuesOf, ParseStep.isError, ParseTable.issueOf, noted, stack,
        remaining, seen, Configuration.position]
  have others {action : Action} (other : action.kind ≠ .errorSkip) :
      run.issues.reverse = run.issues.reverse ++ table.issuesOf [run.noted action] := by
    rw [table.issuesOf_of_ne other, List.append_nil]
  cases advance with
  | dropEpsilon empty =>
    subst empty
    refine ⟨⟨.epsilon, none⟩, by simp, by simp, ?_, others (by simp)⟩
    rw [noted_eq]
    simpa [stack, remaining] using .dropEpsilon _ _ _ _
  | @expand production kind filled =>
    refine ⟨⟨.expand, some production⟩, by simp, by simp, ?_, others (by simp)⟩
    rw [noted_eq]
    simpa [stack, remaining] using .expand _ _ _ _ kind (seen ▸ filled)
  | consume leaf same more =>
    refine ⟨⟨.matched, none⟩, by simp, by simp, ?_, others (by simp)⟩
    rw [noted_eq]
    have other := (accounted.marked stack).1.ne_endOfInput more
    obtain rfl : top = lookahead := same.trans seen
    simpa [stack, remaining, seen] using .consume _ _ _ _ leaf other
  | skipNonterminal kind vacant => exact ⟨_, skips (.vacant kind (seen ▸ vacant))⟩
  | skipLeaf leaf other => exact ⟨_, skips (.other leaf (seen ▸ other))⟩

/-- How a run stands to what it has recorded. -/
structure Chronicled (table : ParseTable) (input : List Symbol) (run : Run) : Prop where
  accounted : run.Accounted input
  chronicle : Chronicle table input run.steps
  initial : run.steps = [] →
    run.configuration.consumed = [] ∧
      run.configuration.stack = [table.grammar.start, .endOfInput] ∧
      run.configuration.remaining = input ++ [.endOfInput]
  arrived : ∀ last ∈ run.steps.getLast?, last.LeadsTo table run.configuration.consumed
    run.configuration.stack run.configuration.remaining
  early : ∀ step ∈ run.steps, step.action.kind ≠ .accept ∧ step.action.kind ≠ .stall
  issues : run.issues.reverse = table.issuesOf run.steps

theorem chronicled_initial (table : ParseTable) (input : List Symbol) :
    (Run.initial table.grammar.start input).Chronicled table input where
  accounted := .initial (Grammar.isNonterminal_of_mem table.grammar.start_mem) input
  chronicle := .nil
  initial := fun _ => ⟨rfl, rfl, rfl⟩
  arrived := by simp
  early := by simp
  issues := rfl

/-- The trace with the step that is taken next. -/
theorem Chronicled.noted (chronicled : run.Chronicled table input)
    (stack : run.configuration.stack = top :: below) {action : Action}
    (unmatched : action.kind = .matched → top ≠ .endOfInput) :
    Chronicle table input (run.steps ++ [run.noted action]) :=
  chronicled.chronicle.concat chronicled.initial (nextNumber_eq chronicled.chronicle)
    chronicled.arrived (chronicled.accounted.placed stack unmatched)

theorem Chronicled.advances (chronicled : run.Chronicled table input)
    (stack : run.configuration.stack = top :: below)
    (advance : run.Advances guarded table top below next) : next.Chronicled table input := by
  obtain ⟨action, records⟩ := advance.recorded chronicled.accounted stack
  have unmatched : action.kind = .matched → top ≠ .endOfInput := by
    simpa [Run.noted, stack] using records.leads.unmatched
  refine ⟨chronicled.accounted.advances stack advance, ?_, ?_, ?_, ?_, ?_⟩
  · rw [records.steps]
    exact chronicled.noted stack unmatched
  · simp [records.steps]
  · simpa [records.steps] using records.leads
  · rw [records.steps]
    exact List.forall_mem_append.mpr ⟨chronicled.early, by simpa using records.early⟩
  · rw [records.issues, records.steps, chronicled.issues, ParseTable.issuesOf_append]

theorem Chronicled.reaches (chronicled : run.Chronicled table input)
    (reached : Reaches guarded table run next) : next.Chronicled table input :=
  reached.invariant (Chronicled table input)
    (fun _ _ _ _ stack advance chronicled => chronicled.advances stack advance) chronicled

/-! ### Terminals -/

/-- Only terminals of the grammar are on the stack or were consumed. -/
def Familiar (table : ParseTable) (run : Run) : Prop :=
  ∀ symbol ∈ run.configuration.stack ++ run.configuration.consumed,
    symbol.isTerminal = true → symbol ∈ table.grammar.terminals

theorem familiar_initial (table : ParseTable) (input : List Symbol) :
    (Run.initial table.grammar.start input).Familiar table := by
  have start := Grammar.isNonterminal_of_mem table.grammar.start_mem
  intro symbol member terminal
  rcases (by simpa [initial, Configuration.initial] using member) with rfl | rfl
  · simp [Symbol.isNonterminal, Symbol.isTerminal] at start terminal
    simp [start] at terminal
  · simp at terminal

theorem Familiar.advances (familiar : run.Familiar table)
    (stack : run.configuration.stack = top :: below)
    (advance : run.Advances guarded table top below next) : next.Familiar table := by
  have below_or_consumed : ∀ symbol ∈ below ++ run.configuration.consumed,
      symbol.isTerminal = true → symbol ∈ table.grammar.terminals := by
    intro symbol member
    exact familiar symbol (by simpa [stack] using .inr (by simpa using member))
  cases advance with
  | dropEpsilon | skipNonterminal | skipLeaf => simpa [Familiar, stack] using below_or_consumed
  | @expand production kind filled =>
    obtain ⟨_, declared⟩ := ParseTable.productionAt_eq_some filled
    intro symbol member terminal
    rcases (by simpa [stack] using member) with written | others
    · simpa [Grammar.terminals, rhsTerminals] using ⟨⟨production, declared, written⟩, terminal⟩
    · exact below_or_consumed symbol (by simpa using others) terminal
  | consume leaf same more =>
    intro symbol member terminal
    rcases (by simpa [stack] using member) with lower | rfl | consumed
    · exact below_or_consumed symbol (by simp [lower]) terminal
    · exact familiar _ (by simp [stack, same]) terminal
    · exact below_or_consumed symbol (by simp [consumed]) terminal

theorem Familiar.reaches (familiar : run.Familiar table)
    (reached : Reaches guarded table run next) : next.Familiar table :=
  reached.invariant (Familiar table)
    (fun _ _ _ _ stack advance familiar => familiar.advances stack advance) familiar

end Run

/-! ### Results -/

theorem mismatchMessage_ne_unparsable (top lookahead : Symbol) (expected : List Symbol) :
    mismatchMessage top lookahead expected ≠ "Input is not parsable with the grammar" := by
  intro same
  have first := congrArg (fun text => text.toList.head?) same
  unfold mismatchMessage at first
  split at first
  · simp [String.toList_append] at first
  · split at first <;> simp [String.toList_append] at first

namespace ParseResult

/-- The last step was taken by an action of some kind. -/
def EndsBy (result : ParseResult) (kind : ActionKind) : Prop :=
  ∃ last ∈ result.trace.getLast?, last.action.kind = kind

/-- The trace, the errors and the verdict of a parse tell the same. -/
structure Tells (table : ParseTable) (input : List Symbol) (result : ParseResult) : Prop where
  taken : result.trace ≠ []
  chronicle : Chronicle table input result.trace
  issues : result.issues = table.issuesOf result.trace
  early : ∀ step ∈ result.trace.dropLast, step.action.kind ≠ .accept ∧ step.action.kind ≠ .stall
  accept : result.verdict = .accept ↔ result.EndsBy .accept ∧ result.issues = []
  recovery : result.verdict = .rejectWithRecovery ↔ result.EndsBy .accept ∧ result.issues ≠ []
  reject : result.verdict = .reject → result.EndsBy .stall ∨
    ∃ last ∈ result.trace.getLast?, last.action.kind = .errorSkip ∧ last.stack = [.endOfInput] ∧
      last.consumed.length < input.length
  message : result.errorMessage ≠ "Input is not parsable with the grammar"
  foreign : ∀ symbol ∈ input, symbol ∉ table.grammar.terminals → result.verdict = .reject

variable {result : ParseResult}

/-- A verdict that is no acceptance is explained by an error or by a stall. -/
theorem errorMessage_ne_unparsable {table : ParseTable} {steps : List ParseStep}
    (issues : result.issues = table.issuesOf steps)
    (explained : result.verdict = .accept ∨ result.issues ≠ [] ∨ result.EndsBy .stall) :
    result.errorMessage ≠ "Input is not parsable with the grammar" := by
  unfold errorMessage success
  split
  · decide
  · rename_i refused
    have refused : result.verdict ≠ .accept := by simpa using refused
    cases reported : result.issues with
    | cons issue rest =>
      have member : issue ∈ table.issuesOf steps := by
        rw [← issues, reported]
        exact List.mem_cons_self
      obtain ⟨step, _, rfl⟩ := List.mem_map.mp member
      exact mismatchMessage_ne_unparsable _ _ _
    | nil =>
      obtain ⟨last, final, stalled⟩ : result.EndsBy .stall := by simpa [refused, reported] using explained
      have stuck : result.stalledOn? = some ((last.stack.head?.map Symbol.name).getD "") := by
        simp [stalledOn?, Option.mem_def.mp final, stalled]
      rw [stuck]
      intro same
      have first := congrArg (fun text => text.toList.head?) same
      simp [String.toList_append] at first

theorem EndsBy.unique {first second : ActionKind} (one : result.EndsBy first)
    (other : result.EndsBy second) : first = second := by
  obtain ⟨last, final, rfl⟩ := one
  obtain ⟨same, again, rfl⟩ := other
  rw [Option.mem_unique final again]

/-- What is left to be said of a rejection: that it ends by a stall, or by skipping the end of
input. -/
theorem tells_of_reject {table : ParseTable} {input : List Symbol}
    (verdict : result.verdict = .reject) (chronicle : Chronicle table input result.trace)
    (issues : result.issues = table.issuesOf result.trace)
    (early : ∀ step ∈ result.trace.dropLast,
      step.action.kind ≠ .accept ∧ step.action.kind ≠ .stall)
    (ending : result.EndsBy .stall ∨ ∃ last ∈ result.trace.getLast?,
      last.action.kind = .errorSkip ∧ last.stack = [.endOfInput] ∧
        last.consumed.length < input.length) : result.Tells table input := by
  have unaccepted : ¬ result.EndsBy .accept := by
    intro accepted
    rcases ending with stalled | ⟨last, final, skipped, _⟩
    · cases stalled.unique accepted
    · cases EndsBy.unique ⟨last, final, skipped⟩ accepted
  refine ⟨?_, chronicle, issues, early, ?_, ?_, fun _ => ending, ?_, fun _ _ _ => verdict⟩
  · rintro nothing
    simp [nothing, EndsBy] at ending
  · simp [verdict, unaccepted]
  · simp [verdict, unaccepted]
  · refine errorMessage_ne_unparsable issues (.inr ?_)
    rcases ending with stalled | ⟨last, final, skipped, _⟩
    · exact .inr stalled
    · left
      rw [issues]
      refine List.ne_nil_of_mem (List.mem_map_of_mem (List.mem_filter.mpr ⟨List.mem_of_getLast? final, ?_⟩))
      simp [ParseStep.isError, skipped]

end ParseResult

namespace Run

variable {guarded : Bool} {table : ParseTable} {run : Run} {input : List Symbol}
  {result : ParseResult}

/-- A run that ends on an empty stack has skipped the end of input before all input was read. -/
theorem Chronicled.exhausted (chronicled : run.Chronicled table input)
    (empty : run.configuration.stack = []) :
    ∃ last ∈ run.steps.getLast?, last.action.kind = .errorSkip ∧ last.stack = [.endOfInput] ∧
      last.consumed.length < input.length := by
  cases final : run.steps.getLast? with
  | none =>
    have unstarted := chronicled.initial (List.getLast?_eq_none_iff.mp final)
    rw [empty] at unstarted
    cases unstarted.2.1
  | some last =>
    have arrived := chronicled.arrived last (by simp [final])
    have placed := chronicled.chronicle.placed last (List.mem_of_getLast? final)
    rw [empty] at arrived
    obtain ⟨skipped, bottom, unread⟩ := arrived.skipped placed.bottom
    refine ⟨last, rfl, skipped, bottom, ?_⟩
    -- if everything was consumed, only the end of input would remain
    by_contra read
    obtain ⟨_, remains⟩ := List.append_inj placed.whole (by
      have inside := placed.inside
      simp only [List.length_reverse]
      omega)
    exact unread (by simp [remains])

/-- The last step of a run that accepts or stalls is recorded like any other. -/
theorem Chronicled.closes (chronicled : run.Chronicled table input) {top : Symbol}
    {below : List Symbol} (stack : run.configuration.stack = top :: below) (action : Action)
    (matched : action.kind ≠ .matched) (skipped : action.kind ≠ .errorSkip) {verdict : Verdict}
    (closed : result = (run.record action).finish verdict) :
    Chronicle table input result.trace ∧ result.issues = table.issuesOf result.trace ∧
      (∀ step ∈ result.trace.dropLast,
        step.action.kind ≠ .accept ∧ step.action.kind ≠ .stall) ∧
      result.EndsBy action.kind := by
  have trace : result.trace = run.steps ++ [run.noted action] := by
    rw [closed, ← steps_record]
    rfl
  have issues : result.issues = run.issues.reverse := by
    rw [closed]
    rfl
  refine ⟨?_, ?_, ?_, run.noted action, by simp [trace], rfl⟩
  · rw [trace]
    exact chronicled.noted stack fun same => absurd same matched
  · rw [issues, trace, chronicled.issues, ParseTable.issuesOf_append,
      table.issuesOf_of_ne (by simpa using skipped), List.append_nil]
  · rw [trace, List.dropLast_concat]
    exact chronicled.early

theorem Chronicled.tells (chronicled : run.Chronicled table input) (familiar : run.Familiar table)
    (clean : .endOfInput ∉ input) (terminals : ∀ symbol ∈ input, symbol.isTerminal = true)
    (ends : run.Ends guarded table result) : result.Tells table input := by
  cases ends with
  | exhausted empty =>
    refine ParseResult.tells_of_reject rfl chronicled.chronicle chronicled.issues ?_
      (.inr (chronicled.exhausted empty))
    exact fun step member => chronicled.early step (List.mem_of_mem_dropLast member)
  | stalled stack kind filled strict opened =>
    obtain ⟨chronicle, issues, early, stalled⟩ :=
      chronicled.closes stack ⟨.stall, _⟩ (by simp) (by simp) rfl
    exact ParseResult.tells_of_reject rfl chronicle issues early (.inl stalled)
  | accepted last ending =>
    have closed : run.accepted = (run.record ⟨.accept, none⟩).finish
        (if run.issues.isEmpty then .accept else .rejectWithRecovery) := rfl
    obtain ⟨chronicle, issues, early, ended⟩ :=
      chronicled.closes last ⟨.accept, none⟩ (by simp) (by simp) closed
    have verdict : run.accepted.verdict =
        if run.accepted.issues = [] then .accept else .rejectWithRecovery := by
      simp [Run.accepted, finish]
    have known : ∀ symbol ∈ input, symbol ∈ table.grammar.terminals := by
      have read := chronicled.accounted.consumed_of_last clean ending
      intro symbol member
      refine familiar symbol ?_ (terminals symbol member)
      rw [← read] at member
      exact List.mem_append_right _ (by simpa using member)
    refine ⟨List.ne_nil_of_mem (List.mem_of_getLast? ended.choose_spec.1), chronicle, issues, early,
      ?_, ?_, ?_, ?_, ?_⟩
    · simp [verdict, ended]
    · simp [verdict, ended]
    · by_cases none : run.accepted.issues = [] <;> simp [verdict, none]
    · refine ParseResult.errorMessage_ne_unparsable issues ?_
      by_cases none : run.accepted.issues = []
      · exact .inl (by simp [verdict, none])
      · exact .inr (.inl none)
    · exact fun symbol member unknown => absurd (known symbol member) unknown

theorem step_ne_error (named : table.Named) {cause : Error} :
    run.step guarded table ≠ .error cause := by
  intro failed
  cases stack : run.configuration.stack with
  | nil =>
    rw [step_nil stack] at failed
    cases failed
  | cons top below =>
    rcases step_cases guarded table stack with ⟨_, same, _⟩ | ⟨_, same, _⟩ | ⟨_, _, _, failed⟩
    · rw [same] at failed
      cases failed
    · rw [same] at failed
      cases failed
    · exact named.productionAt_ne_error failed

end Run

namespace ParseTable

/-- A parse that ends has stopped at a reserved name, or has a result whose trace, errors and verdict
tell the same: every configuration comes from the one before it by the recorded action, the errors
are the steps that skip a symbol, and the verdict is read off the last step. -/
theorem parse_tells_one_story (table : ParseTable) (named : table.Named) {names : List String}
    {limit : Nat} {outcome : Except Error ParseResult}
    (ended : table.parseNames? limit names = some outcome) :
    (∃ name ∈ names, Symbol.isReservedName name = true ∧ outcome = .error (.reservedInput name)) ∨
      ∃ result, outcome = .ok result ∧ result.Tells table (names.map Symbol.terminal) := by
  cases read : names.mapM inputSymbol with
  | error cause =>
    obtain ⟨name, member, reserved, rfl⟩ := reserved_of_mapM_inputSymbol read
    have same : Except.error (.reservedInput name) = outcome := by
      simpa [parseNames?, read] using ended
    exact .inl ⟨name, member, reserved, same.symm⟩
  | ok symbols =>
    obtain ⟨free, rfl⟩ := eq_of_mapM_inputSymbol read
    right
    rw [parseNames?_eq free] at ended
    obtain ⟨last, reached, ⟨cause, failed, _⟩ | ⟨result, stepped, rfl⟩⟩ :=
      Run.exists_last_of_result? ended
    · exact absurd failed (Run.step_ne_error named)
    · refine ⟨result, rfl, ?_⟩
      have chronicled := (Run.chronicled_initial table (names.map Symbol.terminal)).reaches reached
      have familiar := (Run.familiar_initial table (names.map Symbol.terminal)).reaches reached
      refine chronicled.tells familiar ?_ ?_ (Run.ends_of_step stepped)
      · exact fun member => (clean_of_mem_terminals _ member).2 rfl
      · intro symbol member
        obtain ⟨name, _, rfl⟩ := List.mem_map.mp member
        rfl

/-- The foreign letter is never read: the end of input is skipped before it. -/
theorem parse_tells_one_story_handmade :
    handmadeSample.Named ∧
      ∃ outcome, handmadeSample.parseNames? 20 ["a", "x"] = some outcome ∧
        ((∃ name ∈ ["a", "x"], Symbol.isReservedName name = true ∧
            outcome = .error (.reservedInput name)) ∨
          ∃ result, outcome = .ok result ∧
            result.Tells handmadeSample [.terminal "a", .terminal "x"]) := by
  have named : handmadeSample.Named := (faithful_of_cells (by decide)).named
  obtain ⟨outcome, ended⟩ : ∃ outcome,
      handmadeSample.parseNames? 20 ["a", "x"] = some outcome := ⟨_, rfl⟩
  exact ⟨named, outcome, ended, parse_tells_one_story handmadeSample named ended⟩

end ParseTable

end Predictive
