import Predictive.Proofs.Repetition
import Predictive.Proofs.RunDerivation

/-! The stall guard is transparent. Where a run ends without the guard, the guard never stops it;
and where the guard stops a run, the same run without the guard goes on forever and reads nothing
of the input that was left. -/

set_option autoImplicit false

namespace Predictive

namespace Run

variable {guarded : Bool} {table : ParseTable} {run next last : Run} {top : Symbol}
  {below : List Symbol}

/-! ### Runs that go on forever -/

/-- The symbol on the top of the stack is turned into itself and more without any input. -/
def Repeats (table : ParseTable) (run : Run) : Prop :=
  ∃ top segment below, run.configuration.stack = top :: below ∧
    Relation.TransGen (table.Reworks run.configuration.lookahead) [top] (top :: segment)

theorem Repeats.result?_eq_none (repeats : run.Repeats table) (limit : Nat) :
    run.result? false table limit = none := by
  obtain ⟨top, segment, below, stack, again⟩ := repeats
  exact result?_eq_none_of_repeats again limit rfl stack

theorem Repeats.again (repeats : run.Repeats table) :
    ∃ later, Relation.TransGen (fun run next => run.step false table = .ok (.inl next)) run later ∧
      later.Repeats table ∧ later.configuration.remaining = run.configuration.remaining := by
  obtain ⟨top, segment, below, stack, again⟩ := repeats
  obtain ⟨later, reached, longer, kept⟩ :=
    follows_reworks again rfl (show run.configuration.stack = [top] ++ below from stack)
  refine ⟨later, reached, ⟨top, segment, segment ++ below, longer, ?_⟩, kept⟩
  rwa [Configuration.lookahead, kept, ← Configuration.lookahead]

/-- An end would be the end of the repeating run as well. -/
theorem Repeats.endless (repeats : last.Repeats table) (reached : Reaches false table run last)
    (limit : Nat) : run.result? false table limit = none := by
  cases halted : run.result? false table limit with
  | none => rfl
  | some outcome =>
    obtain ⟨rest, ended⟩ := reached.ended halted
    rw [repeats.result?_eq_none rest] at ended
    cases ended

/-- A run comes to one that repeats with a certain rest of the input. -/
def RepeatsOn (table : ParseTable) (remaining : List Symbol) (run : Run) : Prop :=
  ∃ later, Reaches false table run later ∧ later.Repeats table ∧
    later.configuration.remaining = remaining

theorem Repeats.repeatsOn (repeats : run.Repeats table) :
    run.RepeatsOn table run.configuration.remaining :=
  ⟨run, .refl run, repeats, rfl⟩

/-- However often a run is continued, it comes back to where it repeats. -/
theorem RepeatsOn.reaches {remaining : List Symbol} (repeating : run.RepeatsOn table remaining)
    (reached : Reaches false table run next) : next.RepeatsOn table remaining := by
  induction reached with
  | refl => exact repeating
  | @tail middle next _ stepped ih =>
    obtain ⟨later, onward, repeats, kept⟩ := ih
    -- the step leads towards the repeating run, or out of it into the next round
    have round : ∃ final, Relation.TransGen
        (fun run next => run.step false table = .ok (.inl next)) middle final ∧
          final.Repeats table ∧ final.configuration.remaining = remaining := by
      obtain ⟨final, repeated, again, same⟩ := repeats.again
      exact ⟨final, repeated.trans_right onward, again, same.trans kept⟩
    obtain ⟨final, repeated, again, same⟩ := round
    obtain ⟨other, first, rest⟩ := Relation.TransGen.head'_iff.mp repeated
    rw [stepped] at first
    cases first
    exact ⟨final, rest, again, same⟩

theorem RepeatsOn.remaining_suffix {remaining : List Symbol}
    (repeating : run.RepeatsOn table remaining) : remaining <:+ run.configuration.remaining := by
  obtain ⟨later, reached, _, rfl⟩ := repeating
  exact reached.remaining_suffix

/-- Whatever is reached on the way to a repeating run or after it, its input is not read. -/
theorem Repeats.remaining_suffix (repeats : last.Repeats table)
    (reached : Reaches false table run last) (other : Reaches false table run next) :
    last.configuration.remaining <:+ next.configuration.remaining := by
  rcases other.total reached with before | after
  · exact before.remaining_suffix
  · exact (repeats.repeatsOn.reaches after).remaining_suffix

/-- The one step that is noted as a stall is taken from a run that repeats. -/
theorem Grounded.repeats_of_stall (grounded : last.Grounded table)
    (fresh : ∀ step ∈ last.steps, step.action.kind ≠ .stall) {result : ParseResult}
    (ends : last.Ends true table result) {step : ParseStep} (taken : step ∈ result.trace)
    (stalled : step.action.kind = .stall) :
    last.Repeats table ∧ step.remaining = last.configuration.remaining := by
  cases ends with
  | exhausted => exact absurd stalled (fresh step taken)
  | accepted =>
    rw [trace_accepted, List.mem_append, List.mem_singleton] at taken
    rcases taken with early | rfl
    · exact absurd stalled (fresh step early)
    · cases stalled
  | @stalled top below production stack kind filled strict opened =>
    change step ∈ (last.record ⟨.stall, some production⟩).steps at taken
    rw [steps_record, List.mem_append, List.mem_singleton] at taken
    rcases taken with early | rfl
    · exact absurd stalled (fresh step early)
    · obtain ⟨segment, again⟩ := grounded.repeats stack opened
      exact ⟨⟨top, segment, below, stack, again⟩, rfl⟩

end Run

namespace ParseTable

variable {table : ParseTable}

/-- The parse of some names by the automaton without the guard. -/
def parseUnguarded? (table : ParseTable) (limit : Nat) (names : List String) :
    Option (Except Error ParseResult) :=
  match names.mapM inputSymbol with
  | .error cause => some (.error cause)
  | .ok symbols => (Run.initial table.grammar.start symbols).result? false table limit

theorem parseUnguarded?_eq {names : List String}
    (free : ∀ name ∈ names, Symbol.isReservedName name = false) (limit : Nat) :
    table.parseUnguarded? limit names =
      (Run.initial table.grammar.start (names.map Symbol.terminal)).result? false table limit := by
  unfold parseUnguarded?
  rw [mapM_inputSymbol_eq_ok free]

/-- A parse that ends without the guard ends with it, within as many steps and with the same
outcome. -/
theorem parseNames?_of_unguarded
    (nonempty : ∀ production ∈ table.grammar.productions, production.rhs ≠ []) {names : List String}
    {limit : Nat} {outcome : Except Error ParseResult}
    (ended : table.parseUnguarded? limit names = some outcome) :
    table.parseNames? limit names = some outcome := by
  unfold parseUnguarded? at ended
  unfold parseNames?
  cases read : names.mapM inputSymbol with
  | error cause =>
    rw [read] at ended
    exact ended
  | ok symbols =>
    rw [read] at ended
    exact (Run.grounded_initial table.grammar.start symbols).result?_guarded nonempty ended

theorem unstalled_of_unguarded {names : List String} {limit : Nat} {result : ParseResult}
    (ended : table.parseUnguarded? limit names = some (.ok result)) :
    ∀ step ∈ result.trace, step.action.kind ≠ .stall := by
  unfold parseUnguarded? at ended
  cases read : names.mapM inputSymbol with
  | error cause => simp [read] at ended
  | ok symbols =>
    rw [read] at ended
    exact Run.unstalled_of_result? (by simp) ended

/-- A run that ends without the guard is the same with it: no stall is recorded, and verdict, trace
and issues agree. And where the guard stops a run, that run without it never ends, and never reads
the input that was left. -/
theorem stall_guard_transparent (table : ParseTable)
    (nonempty : ∀ production ∈ table.grammar.productions, production.rhs ≠ []) (names : List String) :
    (∀ limit outcome, table.parseUnguarded? limit names = some outcome →
      table.parseNames? limit names = some outcome ∧
        ∀ result, outcome = .ok result → ∀ step ∈ result.trace, step.action.kind ≠ .stall) ∧
    ∀ limit result, table.parseNames? limit names = some (.ok result) →
      ∀ step ∈ result.trace, step.action.kind = .stall →
        (∀ more, table.parseUnguarded? more names = none) ∧
        ∀ run, Run.Reaches false table
            (Run.initial table.grammar.start (names.map Symbol.terminal)) run →
          step.remaining <:+ run.configuration.remaining := by
  constructor
  · intro limit outcome ended
    refine ⟨parseNames?_of_unguarded nonempty ended, ?_⟩
    rintro result rfl
    exact unstalled_of_unguarded ended
  · intro limit result ended step taken stalled
    obtain ⟨free, last, reached, ends⟩ := exists_last_of_parseNames? ended
    have grounded := (Run.grounded_initial table.grammar.start
      (names.map Symbol.terminal)).reaches nonempty reached
    obtain ⟨repeats, same⟩ :=
      grounded.repeats_of_stall (reached.unstalled (by simp)) ends taken stalled
    constructor
    · intro more
      rw [parseUnguarded?_eq free]
      exact repeats.endless reached.unguarded more
    · intro run other
      rw [same]
      exact repeats.remaining_suffix reached.unguarded other

end ParseTable

/-- A table under which a non-terminal comes back behind one that is skipped as an error. -/
def returningSample : ParseTable where
  grammar :=
    { productions :=
        [⟨1, .nonterminal "S", [.nonterminal "A", .nonterminal "S", .terminal "b"]⟩,
         ⟨2, .nonterminal "S", [.terminal "a", .nonterminal "A"]⟩,
         ⟨3, .nonterminal "A", [.terminal "a"]⟩]
      start := .nonterminal "S"
      sound := by decide }
  cells :=
    [⟨.nonterminal "S", .terminal "b", 1⟩, ⟨.nonterminal "S", .terminal "a", 2⟩,
     ⟨.nonterminal "A", .terminal "a", 3⟩]

namespace ParseTable

theorem stall_guard_transparent_returning :
    (∀ production ∈ returningSample.grammar.productions, production.rhs ≠ []) ∧
      (∃ result, returningSample.parseUnguarded? 9 ["a", "b"] = some (.ok result) ∧
        returningSample.parseNames? 9 ["a", "b"] = some (.ok result)) ∧
      ∃ result, returningSample.parseNames? 9 ["b", "a"] = some (.ok result) ∧
        (∃ step ∈ result.trace, step.action.kind = .stall) ∧
        ∀ more, returningSample.parseUnguarded? more ["b", "a"] = none := by
  have nonempty : ∀ production ∈ returningSample.grammar.productions, production.rhs ≠ [] := by
    decide
  obtain ⟨ended, halted⟩ : ∃ result,
      returningSample.parseUnguarded? 9 ["a", "b"] = some (.ok result) := ⟨_, rfl⟩
  obtain ⟨result, parsed, step, taken, stalled⟩ : ∃ result,
      returningSample.parseNames? 9 ["b", "a"] = some (.ok result) ∧
        ∃ step ∈ result.trace, step.action.kind = .stall :=
    ⟨_, rfl, _, List.mem_cons_of_mem _ (List.mem_cons_of_mem _ List.mem_cons_self), rfl⟩
  refine ⟨nonempty, ⟨ended, halted, ?_⟩, result, parsed, ⟨step, taken, stalled⟩, ?_⟩
  · exact ((stall_guard_transparent returningSample nonempty ["a", "b"]).1 _ _ halted).1
  · exact ((stall_guard_transparent returningSample nonempty ["b", "a"]).2 _ _ parsed _ taken
      stalled).1

end ParseTable

end Predictive
