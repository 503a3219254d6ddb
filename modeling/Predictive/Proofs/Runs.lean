import Predictive.Proofs.Derivation
import Predictive.Parsing.Run

/-! Steps and runs of the automaton. A step is one of four advances, and a run that ends with a
result is a chain of advances to a last run whose step gives that result. -/

set_option autoImplicit false

namespace Predictive

namespace Move

variable {table : ParseTable} {top lookahead : Symbol} {below : List Symbol}

theorem choose_endOfInput : choose table .endOfInput [] .endOfInput = .ok .accept := rfl

theorem choose_epsilon : choose table .epsilon below lookahead = .ok .dropEpsilon := by
  cases below <;> rfl

theorem choose_nonterminal (kind : top.isNonterminal = true) :
    choose table top below lookahead =
      (table.productionAt top lookahead).map fun
        | some production => .expand production
        | none => .skip := by
  have ending := Symbol.ne_endOfInput_of_isNonterminal kind
  have more : ¬(below.isEmpty && top = .endOfInput && lookahead = .endOfInput) = true := by
    simp [ending]
  have visible := Symbol.ne_epsilon_of_isNonterminal kind
  exact (if_neg more).trans ((if_neg visible).trans (if_pos kind))

theorem choose_leaf (leaf : top.IsLeaf) :
    choose table top below lookahead =
      if below = [] ∧ top = .endOfInput ∧ lookahead = .endOfInput then .ok .accept
      else if top = lookahead then .ok .consume
      else .ok .skip := by
  unfold choose
  simp only [leaf.1, leaf.2, Bool.and_eq_true, List.isEmpty_iff, decide_eq_true_eq, and_assoc,
    if_false, Bool.false_eq_true]

end Move

namespace Run

/-- The run at which a parse starts. -/
def initial (start : Symbol) (input : List Symbol) : Run :=
  ⟨.initial start input, [], []⟩

/-- What a run can advance to while a symbol is on the top of its stack. -/
inductive Advances (guarded : Bool) (table : ParseTable) (run : Run) (top : Symbol)
    (below : List Symbol) : Run → Prop where
  | dropEpsilon (empty : top = .epsilon) :
      run.Advances guarded table top below
        ((run.record ⟨.epsilon, none⟩).moveTo run.configuration.pop)
  | expand {production : Production} (kind : top.isNonterminal = true)
      (filled : table.productionAt top run.configuration.lookahead = .ok (some production))
      (fresh : guarded = true → run.configuration.isOpen top = false) :
      run.Advances guarded table top below
        ((run.record ⟨.expand, some production⟩).moveTo (run.configuration.expand top production))
  | consume (leaf : top.IsLeaf) (same : top = run.configuration.lookahead)
      (more : below = [] → top ≠ .endOfInput) :
      run.Advances guarded table top below
        ((run.record ⟨.matched, none⟩).moveTo run.configuration.consume)
  | skipNonterminal (kind : top.isNonterminal = true)
      (vacant : table.productionAt top run.configuration.lookahead = .ok none) :
      run.Advances guarded table top below (run.skip table top)
  | skipLeaf (leaf : top.IsLeaf) (other : top ≠ run.configuration.lookahead) :
      run.Advances guarded table top below (run.skip table top)

/-- The results with which a run can end. -/
inductive Ends (guarded : Bool) (table : ParseTable) (run : Run) : ParseResult → Prop where
  | exhausted (empty : run.configuration.stack = []) :
      run.Ends guarded table (run.finish .reject)
  | accepted (last : run.configuration.stack = [.endOfInput])
      (ending : run.configuration.lookahead = .endOfInput) :
      run.Ends guarded table run.accepted
  | stalled {top : Symbol} {below : List Symbol} {production : Production}
      (stack : run.configuration.stack = top :: below) (kind : top.isNonterminal = true)
      (filled : table.productionAt top run.configuration.lookahead = .ok (some production))
      (strict : guarded = true) (opened : run.configuration.isOpen top = true) :
      run.Ends guarded table ((run.record ⟨.stall, some production⟩).finish .reject)

variable {guarded : Bool} {table : ParseTable} {run next : Run} {result : ParseResult}

theorem step_nil (stack : run.configuration.stack = []) :
    run.step guarded table = .ok (.inr (run.finish .reject)) := by
  simp [step, stack]

theorem step_cons {top : Symbol} {below : List Symbol}
    (stack : run.configuration.stack = top :: below) :
    run.step guarded table =
      (Move.choose table top below run.configuration.lookahead).map fun
        | .accept => .inr run.accepted
        | .dropEpsilon => .inl ((run.record ⟨.epsilon, none⟩).moveTo run.configuration.pop)
        | .expand production =>
          if guarded && run.configuration.isOpen top then
            .inr ((run.record ⟨.stall, some production⟩).finish .reject)
          else
            .inl ((run.record ⟨.expand, some production⟩).moveTo
              (run.configuration.expand top production))
        | .consume => .inl ((run.record ⟨.matched, none⟩).moveTo run.configuration.consume)
        | .skip => .inl (run.skip table top) := by
  obtain ⟨⟨consumed, symbols, remaining, expansions⟩, trace, issues⟩ := run
  obtain rfl : symbols = top :: below := stack
  rfl

/-- What a step over a symbol on the top of the stack gives: an advance, an end, or the failure of
a cell that names no production. -/
theorem step_cases (guarded : Bool) (table : ParseTable) {top : Symbol} {below : List Symbol}
    (stack : run.configuration.stack = top :: below) :
    (∃ next, run.step guarded table = .ok (.inl next) ∧ run.Advances guarded table top below next) ∨
      (∃ result, run.step guarded table = .ok (.inr result) ∧ run.Ends guarded table result) ∨
        ∃ cause, run.step guarded table = .error cause ∧ top.isNonterminal = true ∧
          table.productionAt top run.configuration.lookahead = .error cause := by
  rw [step_cons stack]
  -- the empty string, a non-terminal by its cell, or a leaf by the lookahead
  by_cases empty : top = .epsilon
  · subst empty
    rw [Move.choose_epsilon]
    exact .inl ⟨_, rfl, .dropEpsilon rfl⟩
  · by_cases kind : top.isNonterminal = true
    · rw [Move.choose_nonterminal kind]
      cases found : table.productionAt top run.configuration.lookahead with
      | error cause => exact .inr (.inr ⟨cause, rfl, kind, rfl⟩)
      | ok cell =>
        cases cell with
        | none => exact .inl ⟨_, rfl, .skipNonterminal kind found⟩
        | some production =>
          simp only [Except.map]
          split
          · rename_i repeated
            obtain ⟨strict, opened⟩ := Bool.and_eq_true_iff.mp repeated
            exact .inr (.inl ⟨_, rfl, .stalled stack kind found strict opened⟩)
          · rename_i fresh
            refine .inl ⟨_, rfl, .expand kind found ?_⟩
            intro strict
            simpa [strict] using fresh
    · have leaf : top.IsLeaf := ⟨by simpa using kind, empty⟩
      rw [Move.choose_leaf leaf]
      by_cases last : below = [] ∧ top = .endOfInput ∧ run.configuration.lookahead = .endOfInput
      · rw [if_pos last]
        refine .inr (.inl ⟨_, rfl, .accepted ?_ last.2.2⟩)
        rw [stack, last.1, last.2.1]
      · rw [if_neg last]
        by_cases same : top = run.configuration.lookahead
        · rw [if_pos same]
          refine .inl ⟨_, rfl, .consume leaf same ?_⟩
          intro nothing ending
          exact last ⟨nothing, ending, same ▸ ending⟩
        · rw [if_neg same]
          exact .inl ⟨_, rfl, .skipLeaf leaf same⟩

theorem advances_of_step (stepped : run.step guarded table = .ok (.inl next)) :
    ∃ top below, run.configuration.stack = top :: below ∧
      run.Advances guarded table top below next := by
  cases stack : run.configuration.stack with
  | nil => rw [step_nil stack] at stepped; cases stepped
  | cons top below =>
    refine ⟨top, below, rfl, ?_⟩
    rcases step_cases guarded table stack with
      ⟨other, same, advance⟩ | ⟨_, same, _⟩ | ⟨_, same, _⟩
    · rw [same] at stepped
      cases stepped
      exact advance
    · rw [same] at stepped
      cases stepped
    · rw [same] at stepped
      cases stepped

theorem step_of_advances {top : Symbol} {below : List Symbol}
    (stack : run.configuration.stack = top :: below)
    (advance : run.Advances guarded table top below next) :
    run.step guarded table = .ok (.inl next) := by
  rw [step_cons stack]
  cases advance with
  | dropEpsilon empty =>
    subst empty
    rw [Move.choose_epsilon]
    rfl
  | expand kind filled fresh =>
    rw [Move.choose_nonterminal kind, filled]
    simp only [Except.map]
    rw [if_neg]
    intro repeated
    obtain ⟨strict, opened⟩ := Bool.and_eq_true_iff.mp repeated
    simp [fresh strict] at opened
  | consume leaf same more =>
    rw [Move.choose_leaf leaf, if_neg, if_pos same]
    · rfl
    · rintro ⟨nothing, ending, _⟩
      exact more nothing ending
  | skipNonterminal kind vacant =>
    rw [Move.choose_nonterminal kind, vacant]
    rfl
  | skipLeaf leaf other =>
    rw [Move.choose_leaf leaf, if_neg, if_neg other]
    · rfl
    · rintro ⟨_, ending, same⟩
      exact other (ending.trans same.symm)

theorem ends_of_step (stepped : run.step guarded table = .ok (.inr result)) :
    run.Ends guarded table result := by
  cases stack : run.configuration.stack with
  | nil =>
    rw [step_nil stack] at stepped
    cases stepped
    exact .exhausted stack
  | cons top below =>
    rcases step_cases guarded table stack with
      ⟨_, same, _⟩ | ⟨other, same, ending⟩ | ⟨_, same, _⟩
    · rw [same] at stepped
      cases stepped
    · rw [same] at stepped
      cases stepped
      exact ending
    · rw [same] at stepped
      cases stepped

theorem step_of_last (last : run.configuration.stack = [.endOfInput])
    (ending : run.configuration.lookahead = .endOfInput) :
    run.step guarded table = .ok (.inr run.accepted) := by
  rw [step_cons last, ending, Move.choose_endOfInput]
  rfl

/-! ### Runs -/

/-- The runs that are reached from a run by any number of steps. -/
def Reaches (guarded : Bool) (table : ParseTable) : Run → Run → Prop :=
  Relation.ReflTransGen fun run next => run.step guarded table = .ok (.inl next)

theorem Reaches.refl (run : Run) : Reaches guarded table run run :=
  Relation.ReflTransGen.refl

theorem Reaches.trans {last : Run} (first : Reaches guarded table run next)
    (second : Reaches guarded table next last) : Reaches guarded table run last :=
  Relation.ReflTransGen.trans first second

theorem Reaches.of_advances {top : Symbol} {below : List Symbol}
    (stack : run.configuration.stack = top :: below)
    (advance : run.Advances guarded table top below next) : Reaches guarded table run next :=
  .single (step_of_advances stack advance)

/-- What every advance keeps holds of all that is reached. -/
theorem Reaches.invariant (holds : Run → Prop)
    (kept : ∀ run top below next, run.configuration.stack = top :: below →
      run.Advances guarded table top below next → holds run → holds next)
    (reached : Reaches guarded table run next) (initially : holds run) : holds next := by
  induction reached with
  | refl => exact initially
  | tail _ stepped ih =>
    obtain ⟨top, below, stack, advance⟩ := advances_of_step stepped
    exact kept _ top below _ stack advance ih

theorem lookahead_of_remaining {rest : List Symbol}
    (remaining : run.configuration.remaining = rest ++ [.endOfInput]) :
    run.configuration.lookahead = rest.headD .endOfInput := by
  cases rest <;> simp [Configuration.lookahead, remaining]

/-- Input is only ever taken off the front. -/
theorem Reaches.remaining_suffix (reached : Reaches guarded table run next) :
    next.configuration.remaining <:+ run.configuration.remaining := by
  refine reached.invariant
    (fun later => later.configuration.remaining <:+ run.configuration.remaining) ?_
    (List.suffix_refl _)
  intro later top below after _ advance suffix
  cases advance with
  | consume => exact (List.tail_suffix _).trans suffix
  | _ => exact suffix

theorem Advances.unguarded {top : Symbol} {below : List Symbol}
    (advance : run.Advances guarded table top below next) :
    run.Advances false table top below next := by
  cases advance with
  | dropEpsilon empty => exact .dropEpsilon empty
  | expand kind filled _ => exact .expand kind filled (by simp)
  | consume leaf same more => exact .consume leaf same more
  | skipNonterminal kind vacant => exact .skipNonterminal kind vacant
  | skipLeaf leaf other => exact .skipLeaf leaf other

/-- Without the guard a run goes where it goes with it. -/
theorem Reaches.unguarded (reached : Reaches guarded table run next) :
    Reaches false table run next := by
  refine Relation.ReflTransGen.mono ?_ _ _ reached
  intro run next stepped
  obtain ⟨top, below, stack, advance⟩ := advances_of_step stepped
  exact step_of_advances stack advance.unguarded

/-- Of two runs that are reached from one, one is reached from the other. -/
theorem Reaches.total {last : Run} (first : Reaches guarded table run next)
    (second : Reaches guarded table run last) :
    Reaches guarded table next last ∨ Reaches guarded table last next := by
  refine Relation.ReflTransGen.total_of_right_unique ?_ first second
  intro run left right one other
  rw [one] at other
  cases other
  rfl

theorem exists_last_of_result? {limit : Nat} {outcome : Except Error ParseResult}
    (ended : run.result? guarded table limit = some outcome) :
    ∃ last, Reaches guarded table run last ∧
      ((∃ cause, last.step guarded table = .error cause ∧ outcome = .error cause) ∨
        ∃ result, last.step guarded table = .ok (.inr result) ∧ outcome = .ok result) := by
  induction limit generalizing run with
  | zero => cases ended
  | succ limit ih =>
    unfold result? at ended
    split at ended
    · rename_i cause stepped
      exact ⟨run, .refl _, .inl ⟨cause, stepped, (Option.some.inj ended).symm⟩⟩
    · rename_i result stepped
      exact ⟨run, .refl _, .inr ⟨result, stepped, (Option.some.inj ended).symm⟩⟩
    · rename_i next stepped
      obtain ⟨last, reached, final⟩ := ih ended
      exact ⟨last, reached.head stepped, final⟩

theorem Reaches.result? (reached : Reaches guarded table run next) {limit : Nat}
    {outcome : Except Error ParseResult} (ended : next.result? guarded table limit = some outcome) :
    ∃ more, run.result? guarded table more = some outcome := by
  induction reached using Relation.ReflTransGen.head_induction_on with
  | refl => exact ⟨limit, ended⟩
  | head stepped _ ih =>
    obtain ⟨more, ended⟩ := ih
    exact ⟨more + 1, by rw [result?_of_step stepped, ended]⟩

/-- What a run ends with, it ends with from every run on its way. -/
theorem Reaches.ended (reached : Reaches guarded table run next) {limit : Nat}
    {outcome : Except Error ParseResult} (ended : run.result? guarded table limit = some outcome) :
    ∃ rest, next.result? guarded table rest = some outcome := by
  induction reached with
  | refl => exact ⟨limit, ended⟩
  | tail _ stepped ih =>
    obtain ⟨rest, ended⟩ := ih
    cases rest with
    | zero => cases ended
    | succ rest => exact ⟨rest, by rwa [result?_of_step stepped] at ended⟩

theorem result?_of_end (stepped : run.step guarded table = .ok (.inr result)) :
    run.result? guarded table 1 = some (.ok result) := by
  simp only [result?, stepped]

/-- A parse has one outcome, whatever the limits within which it ends. -/
theorem result?_unique {first second : Nat} {left right : Except Error ParseResult}
    (one : run.result? guarded table first = some left)
    (other : run.result? guarded table second = some right) : left = right := by
  -- within both limits together there are both outcomes
  have early := result?_mono one second
  have late := result?_mono other first
  rw [Nat.add_comm, late] at early
  exact (Option.some.inj early).symm

end Run

theorem inputSymbol_eq_ok {name : String} (free : Symbol.isReservedName name = false) :
    inputSymbol name = .ok (.terminal name) := by
  simp [inputSymbol, free]

theorem mapM_inputSymbol_eq_ok {names : List String}
    (free : ∀ name ∈ names, Symbol.isReservedName name = false) :
    names.mapM inputSymbol = .ok (names.map Symbol.terminal) :=
  mapM_eq_ok fun name member => inputSymbol_eq_ok (free name member)

theorem eq_of_mapM_inputSymbol {names : List String} {symbols : List Symbol}
    (read : names.mapM inputSymbol = .ok symbols) :
    (∀ name ∈ names, Symbol.isReservedName name = false) ∧
      symbols = names.map Symbol.terminal := by
  induction names generalizing symbols with
  | nil => cases read; exact ⟨by simp, rfl⟩
  | cons name rest ih =>
    rw [List.mapM_cons] at read
    cases reserved : Symbol.isReservedName name with
    | true => simp [inputSymbol, reserved, bind, Except.bind] at read
    | false =>
      rw [inputSymbol_eq_ok reserved] at read
      cases others : rest.mapM inputSymbol with
      | error cause => rw [others] at read; cases read
      | ok tail =>
        rw [others] at read
        cases read
        obtain ⟨free, same⟩ := ih others
        exact ⟨List.forall_mem_cons.mpr ⟨reserved, free⟩, by rw [same]; rfl⟩

/-- An input that cannot be read holds a reserved name. -/
theorem reserved_of_mapM_inputSymbol {names : List String} {cause : Error}
    (failed : names.mapM inputSymbol = .error cause) :
    ∃ name ∈ names, Symbol.isReservedName name = true ∧ cause = .reservedInput name := by
  induction names with
  | nil => cases failed
  | cons name rest ih =>
    rw [List.mapM_cons] at failed
    cases reserved : Symbol.isReservedName name with
    | true =>
      refine ⟨name, List.mem_cons_self, reserved, ?_⟩
      simpa [inputSymbol, reserved, bind, Except.bind] using failed.symm
    | false =>
      rw [inputSymbol_eq_ok reserved] at failed
      cases others : rest.mapM inputSymbol with
      | error other =>
        rw [others] at failed
        cases failed
        obtain ⟨late, member, rest⟩ := ih others
        exact ⟨late, List.mem_cons_of_mem _ member, rest⟩
      | ok tail =>
        rw [others] at failed
        cases failed

namespace ParseTable

variable {table : ParseTable}

/-- A filled cell names a production of the grammar. -/
theorem productionAt_eq_some {symbol lookahead : Symbol}
    {production : Production}
    (filled : table.productionAt symbol lookahead = .ok (some production)) :
    table.at? symbol lookahead = some production.id ∧ production ∈ table.grammar.productions := by
  unfold productionAt at filled
  cases cell : table.at? symbol lookahead with
  | none => simp [cell] at filled
  | some id =>
    unfold Grammar.production at filled
    cases found : table.grammar.production? id with
    | none => simp [cell, found, Except.map] at filled
    | some other =>
      have same : other = production := by simpa [cell, found, Except.map] using filled
      subst same
      obtain ⟨declared, rfl⟩ := Grammar.production?_eq_some.mp found
      exact ⟨rfl, declared⟩

theorem parseNames?_eq {names : List String}
    (free : ∀ name ∈ names, Symbol.isReservedName name = false) (limit : Nat) :
    table.parseNames? limit names =
      (Run.initial table.grammar.start (names.map Symbol.terminal)).result? true table limit := by
  unfold parseNames?
  rw [mapM_inputSymbol_eq_ok free]
  rfl

end ParseTable

end Predictive
