import Predictive.Proofs.Bookkeeping

/-! What a run derives, over any table whose cells name productions of their non-terminals. The
symbols that were removed, followed by what is on the stack, are derived from the start symbol at
every step: recovery takes a symbol off the stack but not out of the derivation. So an accepted
input is derived, and a recovered one is what remains of a sentential form without the skipped
tops. -/

set_option autoImplicit false

namespace Predictive

namespace ParseTable

/-- Every filled cell names a production of its non-terminal. -/
def Faithful (table : ParseTable) : Prop :=
  ∀ nonterminal lookahead id, table.at? nonterminal lookahead = some id →
    ∃ production ∈ table.grammar.productions, production.id = id ∧ production.lhs = nonterminal

variable {table : ParseTable}

theorem faithful_of_cells
    (named : ∀ cell ∈ table.cells, ∃ production ∈ table.grammar.productions,
      production.id = cell.id ∧ production.lhs = cell.nonterminal) : table.Faithful := by
  intro nonterminal lookahead id filled
  obtain ⟨cell, found, rfl⟩ := Option.map_eq_some_iff.mp filled
  have place := List.find?_some found
  simp only [Cell.isAt, Bool.and_eq_true, decide_eq_true_eq] at place
  rw [← place.1]
  exact named cell (List.mem_of_find?_eq_some found)

theorem Faithful.lhs_eq (faithful : table.Faithful) {nonterminal lookahead : Symbol}
    {production : Production}
    (filled : table.productionAt nonterminal lookahead = .ok (some production)) :
    production ∈ table.grammar.productions ∧ production.lhs = nonterminal := by
  obtain ⟨cell, declared⟩ := productionAt_eq_some filled
  obtain ⟨other, known, same, owner⟩ := faithful nonterminal lookahead production.id cell
  rw [← Grammar.eq_of_id_eq known declared same]
  exact ⟨known, owner⟩

end ParseTable

namespace Run

variable {guarded : Bool} {table : ParseTable} {run next : Run} {top : Symbol}
  {below : List Symbol}

theorem pendingSymbols_rhs {production : Production}
    (declared : production ∈ table.grammar.productions) :
    pendingSymbols production.rhs = withoutEpsilon production.rhs := by
  unfold pendingSymbols
  rw [List.filter_eq_self.mpr]
  intro symbol member
  have kind := Grammar.kind_ne_endOfInput declared member
  simpa using fun same : symbol = .endOfInput => kind (by rw [same]; rfl)

@[simp] theorem pendingSymbols_epsilon_cons (below : List Symbol) :
    pendingSymbols (.epsilon :: below) = pendingSymbols below := by
  simp [pendingSymbols, Symbol.epsilon, Symbol.endOfInput, withoutEpsilon]

/-- What a run has derived so far: the removed symbols, then what is on the stack. -/
def derived (run : Run) : List Symbol :=
  removedSymbols run.steps ++ pendingSymbols run.configuration.stack

theorem derived_of_removal (next : Run) {kind : ActionKind} {step : ParseStep}
    (visible : top ≠ .epsilon)
    (stack : run.configuration.stack = top :: below) (removal : removals [step] = [(kind, top)])
    (steps : next.steps = run.steps ++ [step]) (popped : next.configuration.stack = below) :
    next.derived = run.derived := by
  unfold derived
  rw [steps, popped, stack, pendingSymbols_cons visible, removedSymbols_append, List.append_assoc]
  simp [removedSymbols, removal]

theorem derives_of_advances (faithful : table.Faithful)
    (stack : run.configuration.stack = top :: below)
    (advance : run.Advances guarded table top below next) :
    table.grammar.Derives run.derived next.derived := by
  cases advance with
  | dropEpsilon empty =>
    unfold derived
    simp [stack, empty, removedSymbols, Grammar.Derives.refl]
  | @expand production kind filled fresh =>
    -- the one advance that derives something: the others move the top to the removed symbols
    obtain ⟨declared, rfl⟩ := faithful.lhs_eq filled
    have before : run.derived =
        removedSymbols run.steps ++ ([production.lhs] ++ pendingSymbols below) := by
      unfold derived
      rw [stack, pendingSymbols_visible (Symbol.ne_epsilon_of_isNonterminal kind)
        (Symbol.ne_endOfInput_of_isNonterminal kind)]
      rfl
    have after : derived ((run.record ⟨.expand, some production⟩).moveTo
          (run.configuration.expand production.lhs production)) =
        removedSymbols run.steps ++ (withoutEpsilon production.rhs ++ pendingSymbols below) := by
      simp [derived, stack, pendingSymbols_rhs declared, removedSymbols]
    rw [before, after]
    exact ((Grammar.Derives.of_production declared).append_right _).append_left _
  | consume leaf same more =>
    have equal := derived_of_removal
      ((run.record ⟨.matched, none⟩).moveTo run.configuration.consume) leaf.2 stack
      (removals_matched stack) (by simp) (by simp [stack])
    rw [equal]
  | skipNonterminal kind vacant =>
    have equal := derived_of_removal (run.skip table top)
      (Symbol.ne_epsilon_of_isNonterminal kind) stack (removals_errorSkip stack) (by simp)
      (by simp [stack])
    rw [equal]
  | skipLeaf leaf other =>
    have equal := derived_of_removal (run.skip table top) leaf.2 stack
      (removals_errorSkip stack) (by simp) (by simp [stack])
    rw [equal]

theorem derived_initial {start : Symbol} (kind : start.isNonterminal = true)
    (input : List Symbol) : (initial start input).derived = [start] := by
  simp [derived, initial, Configuration.initial, steps, removedSymbols, removals, pendingSymbols,
    withoutEpsilon, Symbol.ne_epsilon_of_isNonterminal kind,
    Symbol.ne_endOfInput_of_isNonterminal kind]

theorem derives_of_reaches (faithful : table.Faithful) {input : List Symbol}
    (reached : Reaches guarded table (initial table.grammar.start input) run) :
    table.grammar.Derives [table.grammar.start] run.derived := by
  apply reached.invariant fun run => table.grammar.Derives [table.grammar.start] run.derived
  · intro run top below next stack advance derived
    exact derived.trans (derives_of_advances faithful stack advance)
  · rw [derived_initial (Grammar.isNonterminal_of_mem table.grammar.start_mem)]

/-- Only the acceptance of the whole input gives a verdict other than rejection. -/
theorem Ends.verdict_ne_reject {result : ParseResult} (ends : run.Ends guarded table result)
    (accepted : result.verdict ≠ .reject) :
    run.configuration.stack = [.endOfInput] ∧ run.configuration.lookahead = .endOfInput ∧
      result = run.accepted := by
  cases ends with
  | exhausted => exact absurd rfl accepted
  | accepted last ending => exact ⟨last, ending, rfl⟩
  | stalled => exact absurd rfl accepted

end Run

namespace ParseTable

variable {table : ParseTable}

theorem exists_last_of_parseNames? {names : List String} {limit : Nat} {result : ParseResult}
    (ended : table.parseNames? limit names = some (.ok result)) :
    (∀ name ∈ names, Symbol.isReservedName name = false) ∧
      ∃ last, Run.Reaches true table
          (Run.initial table.grammar.start (names.map Symbol.terminal)) last ∧
        last.Ends true table result := by
  cases read : names.mapM inputSymbol with
  | error cause => simp [parseNames?, read] at ended
  | ok symbols =>
    obtain ⟨free, rfl⟩ := eq_of_mapM_inputSymbol read
    rw [parseNames?_eq free] at ended
    obtain ⟨last, reached, ⟨cause, _, failed⟩ | ⟨other, stepped, same⟩⟩ :=
      Run.exists_last_of_result? ended
    · cases failed
    · cases same
      exact ⟨free, last, reached, Run.ends_of_step stepped⟩

/-- A result that is no rejection: all of the input was matched, the recorded errors are the
skipped symbols, and all removed symbols together are derived from the start symbol. -/
theorem derives_of_not_reject (faithful : table.Faithful) {names : List String} {limit : Nat}
    {result : ParseResult} (ended : table.parseNames? limit names = some (.ok result))
    (accepted : result.verdict ≠ .reject) :
    table.grammar.Derives [table.grammar.start] ((removals result.trace).map Prod.snd) ∧
      removedBy .matched result.trace = names.map Symbol.terminal ∧
      removedBy .errorSkip result.trace = result.issues.map ParseIssue.top := by
  obtain ⟨free, last, reached, ends⟩ := exists_last_of_parseNames? ended
  obtain ⟨stack, ending, rfl⟩ := ends.verdict_ne_reject accepted
  have start := Grammar.isNonterminal_of_mem table.grammar.start_mem
  have accounted := (Run.Accounted.initial start (names.map Symbol.terminal)).reaches reached
  have derived := Run.derives_of_reaches faithful reached
  have clean : .endOfInput ∉ names.map Symbol.terminal := fun member =>
    (clean_of_mem_terminals _ member).2 rfl
  have trace : removals last.accepted.trace = removals last.steps := by
    rw [Run.trace_accepted]
    simp
  -- nothing is left on the stack and no end of input was removed: what was derived is removed
  have unmarked := (accounted.marked stack).2
  refine ⟨?_, ?_, ?_⟩
  · have whole : last.derived = (removals last.steps).map Prod.snd := by
      unfold Run.derived removedSymbols
      rw [stack, List.filter_eq_self.mpr]
      · simp [pendingSymbols]
      · intro symbol member
        simpa using fun same : symbol = .endOfInput => unmarked (same ▸ member)
    rw [trace, ← whole]
    exact derived
  · have matched := accounted.matched
    rw [accounted.consumed_of_last clean ending] at matched
    unfold removedBy at matched ⊢
    rw [trace]
    exact matched
  · have skipped := accounted.skipped
    unfold removedBy at skipped ⊢
    rw [trace]
    exact skipped

theorem isEmpty_issues_of_accept {names : List String} {limit : Nat} {result : ParseResult}
    (ended : table.parseNames? limit names = some (.ok result))
    (accepted : result.verdict = .accept) : result.issues = [] := by
  obtain ⟨_, last, _, ends⟩ := exists_last_of_parseNames? ended
  obtain ⟨_, _, rfl⟩ := ends.verdict_ne_reject (by simp [accepted])
  have none : last.issues.isEmpty = true := by
    by_contra some
    simp [Run.accepted, Run.finish, some] at accepted
  simpa [Run.accepted, Run.finish] using none

end ParseTable

/-- Where nothing was skipped, what was matched is all that was removed. -/
theorem map_removals_of_skipped_nil {trace : List ParseStep}
    (none : removedBy .errorSkip trace = []) :
    (removals trace).map Prod.snd = removedBy .matched trace := by
  unfold removedBy at none ⊢
  rw [List.filter_eq_self.mpr]
  intro removal member
  have other : removal.1 ≠ .errorSkip := by
    intro skipped
    have inside : removal.2 ∈ ((removals trace).filter (·.1 = .errorSkip)).map Prod.snd :=
      List.mem_map.mpr ⟨removal, List.mem_filter.mpr ⟨member, by simpa using skipped⟩, rfl⟩
    simp [none] at inside
  obtain ⟨step, _, removed⟩ := List.mem_filterMap.mp member
  unfold ParseStep.removal? at removed
  split at removed
  · obtain ⟨top, _, rfl⟩ := Option.map_eq_some_iff.mp removed
    rfl
  · obtain ⟨top, _, rfl⟩ := Option.map_eq_some_iff.mp removed
    exact absurd rfl other
  · cases removed

namespace ParseTable

theorem derives_of_accept {table : ParseTable} (faithful : table.Faithful) {names : List String}
    {limit : Nat} {result : ParseResult}
    (ended : table.parseNames? limit names = some (.ok result))
    (accepted : result.verdict = .accept) :
    table.grammar.Derives [table.grammar.start] (names.map Symbol.terminal) := by
  obtain ⟨derived, matched, skipped⟩ := derives_of_not_reject faithful ended (by simp [accepted])
  have none : removedBy .errorSkip result.trace = [] := by
    rw [skipped, isEmpty_issues_of_accept ended accepted]
    rfl
  rw [map_removals_of_skipped_nil none, matched] at derived
  exact derived

/-- At every step of a run the start symbol derives the removed symbols followed by the stack. An
accepted input is derived from the start symbol; a recovered one is a sentential form from which
exactly the tops of the recorded errors were taken. -/
theorem run_derives_removed_and_pending (table : ParseTable) (faithful : table.Faithful) :
    (∀ input run, Run.Reaches true table (Run.initial table.grammar.start input) run →
      table.grammar.Derives [table.grammar.start]
        (removedSymbols run.steps ++ pendingSymbols run.configuration.stack)) ∧
    ∀ names limit result, table.parseNames? limit names = some (.ok result) →
      (result.verdict = .accept →
        table.grammar.Derives [table.grammar.start] (names.map Symbol.terminal)) ∧
      (result.verdict = .rejectWithRecovery →
        table.grammar.Derives [table.grammar.start] ((removals result.trace).map Prod.snd) ∧
        ((removals result.trace).filter (·.1 = .matched)).map Prod.snd =
          names.map Symbol.terminal ∧
        ((removals result.trace).filter (·.1 = .errorSkip)).map Prod.snd =
          result.issues.map ParseIssue.top) := by
  refine ⟨fun input run reached => Run.derives_of_reaches faithful reached, ?_⟩
  intro names limit result ended
  constructor
  · exact derives_of_accept faithful ended
  · intro recovered
    exact derives_of_not_reject faithful ended (by simp [recovered])

end ParseTable

/-- A table that was filled by hand, with one of two conflicting productions, for a grammar that
writes the empty string inside a right-hand side. -/
def handmadeSample : ParseTable where
  grammar :=
    { productions :=
        [⟨1, .nonterminal "S", [.terminal "a", .epsilon, .nonterminal "S", .terminal "b"]⟩,
         ⟨2, .nonterminal "S", []⟩,
         ⟨3, .nonterminal "S", [.terminal "a"]⟩]
      start := .nonterminal "S"
      sound := by decide }
  cells := [⟨.nonterminal "S", .terminal "a", 1⟩, ⟨.nonterminal "S", .endOfInput, 2⟩]

namespace ParseTable

/-- Both errors of this input are letters that it lacks. -/
theorem run_derives_removed_and_pending_handmade :
    handmadeSample.Faithful ∧
      (∃ run, Run.Reaches true handmadeSample
          (Run.initial handmadeSample.grammar.start [.terminal "a", .terminal "a"]) run ∧
        handmadeSample.grammar.Derives [handmadeSample.grammar.start]
          (removedSymbols run.steps ++ pendingSymbols run.configuration.stack)) ∧
      ∃ result, handmadeSample.parseNames? 20 ["a", "a"] = some (.ok result) ∧
        result.verdict = .rejectWithRecovery ∧
        handmadeSample.grammar.Derives [handmadeSample.grammar.start]
          ((removals result.trace).map Prod.snd) := by
  have faithful : handmadeSample.Faithful := faithful_of_cells (by decide)
  obtain ⟨result, ended, recovered⟩ : ∃ result,
      handmadeSample.parseNames? 20 ["a", "a"] = some (.ok result) ∧
        result.verdict = .rejectWithRecovery := ⟨_, rfl, rfl⟩
  have sound := run_derives_removed_and_pending handmadeSample faithful
  exact ⟨faithful, ⟨_, .refl _, sound.1 _ _ (.refl _)⟩, result, ended, recovered,
    ((sound.2 _ _ _ ended).2 recovered).1⟩

end ParseTable

end Predictive
