import Predictive.Proofs.NormalForms
import Predictive.Proofs.StallGuard

/-! Verdicts and how right-hand sides write the empty string. Without the guard, runs over tables
that act the same end with the same verdict: one drops a written empty string where the other has
nothing to drop. The guard keeps the verdict as well, with one exception: an expansion that put
nothing on the stack stays noted for one more step, so the guard takes the next expansion of the
same symbol for a repetition. -/

set_option autoImplicit false

namespace Predictive

/-- The stall of a parse comes right behind an expansion that put nothing on the stack. -/
def ParseResult.StallsOnNothing (grammar : Grammar) (result : ParseResult) : Prop :=
  ∃ production ∈ grammar.productions, production.rhs = [] ∧ ∃ earlier expansion stall,
    result.trace = earlier ++ [expansion, stall] ∧
      expansion.action = ⟨.expand, some production⟩ ∧ stall.action.kind = .stall

namespace ParseTable.ActsAs

variable {left right : ParseTable} {symbol lookahead : Symbol}

theorem cell (same : left.ActsAs right) {held : Option Production}
    (read : left.productionAt symbol lookahead = .ok held) :
    ∃ other, right.productionAt symbol lookahead = .ok other ∧
      held.map Production.bare = other.map Production.bare := by
  have cell := same.cells symbol lookahead
  rw [read] at cell
  cases found : right.productionAt symbol lookahead with
  | error cause => simp [found, Except.map] at cell
  | ok other => exact ⟨other, rfl, by simpa [found, Except.map] using cell⟩

theorem filled (same : left.ActsAs right) {production : Production}
    (filled : left.productionAt symbol lookahead = .ok (some production)) :
    ∃ other, right.productionAt symbol lookahead = .ok (some other) ∧
      production.bare = other.bare := by
  obtain ⟨other, found, equal⟩ := same.cell filled
  cases other with
  | none => cases equal
  | some other => exact ⟨other, found, Option.some.inj equal⟩

theorem vacant (same : left.ActsAs right)
    (vacant : left.productionAt symbol lookahead = .ok none) :
    right.productionAt symbol lookahead = .ok none := by
  obtain ⟨other, found, equal⟩ := same.cell vacant
  cases other with
  | none => exact found
  | some other => cases equal

end ParseTable.ActsAs

namespace Run

variable {guarded : Bool} {table : ParseTable} {run next last : Run} {top : Symbol}
  {below input : List Symbol} {result : ParseResult}

/-! ### What the guard changes -/

/-- How a run without the guard goes on where the guarded one has ended: it ends as well, or it was
stopped and never ends. -/
theorem Ends.unguarded (reached : Reaches true table run last) (anchored : run.Anchored table)
    (ends : last.Ends true table result) (fair : ¬result.StallsOnNothing table.grammar) :
    (∃ limit, run.result? false table limit = some (.ok result)) ∨
      (result.verdict = .reject ∧ ∀ limit, run.result? false table limit = none) := by
  cases ends with
  | exhausted empty => exact .inl (reached.unguarded.result? (result?_of_end (step_nil empty)))
  | accepted bottom ending =>
    exact .inl (reached.unguarded.result? (result?_of_end (step_of_last bottom ending)))
  | @stalled top below production stack kind filled strict opened =>
    rcases (anchored.reaches reached).repeats stack opened with ⟨segment, again⟩ | nothing
    · have repeats : last.Repeats table := ⟨top, segment, below, stack, again⟩
      exact .inr ⟨rfl, repeats.endless reached.unguarded⟩
    · obtain ⟨empty, declared, none, earlier, expansion, steps, taken⟩ := nothing
      refine absurd ⟨empty, declared, none, earlier, expansion,
        last.noted ⟨.stall, some production⟩, ?_, taken, rfl⟩ fair
      change (last.record ⟨.stall, some production⟩).steps = _
      rw [steps_record, steps]
      simp

/-! ### Runs over tables that act the same -/

/-- Two runs on one input that differ at most in the empty strings on their stacks. -/
structure Shadows (input : List Symbol) (left right : Run) : Prop where
  stack : withoutEpsilon left.configuration.stack = withoutEpsilon right.configuration.stack
  remaining : left.configuration.remaining = right.configuration.remaining
  issues : left.issues = [] ↔ right.issues = []
  first : left.Accounted input
  second : right.Accounted input

/-- A run drops the empty strings on the top of its stack. -/
theorem exists_visible_top (table : ParseTable) (run : Run) :
    ∃ later, Reaches false table run later ∧ later.configuration.stack.head? ≠ some .epsilon ∧
      withoutEpsilon later.configuration.stack = withoutEpsilon run.configuration.stack ∧
      later.configuration.remaining = run.configuration.remaining ∧ later.issues = run.issues := by
  generalize symbols : run.configuration.stack = stack
  induction stack generalizing run with
  | nil => exact ⟨run, .refl run, by simp [symbols], by rw [symbols], rfl, rfl⟩
  | cons top below ih =>
    by_cases empty : top = .epsilon
    · subst empty
      obtain ⟨later, reached, visible, same, kept⟩ :=
        ih ((run.record ⟨.epsilon, none⟩).moveTo run.configuration.pop) (by simp [symbols])
      exact ⟨later, .trans (.of_advances symbols (.dropEpsilon rfl)) reached, visible,
        by simpa using same, kept⟩
    · exact ⟨run, .refl run, by simpa [symbols] using empty, by rw [symbols], rfl, rfl⟩

namespace Shadows

variable {left right later : Run} {first second : ParseTable}

theorem lookahead_eq (shadows : left.Shadows input right) :
    left.configuration.lookahead = right.configuration.lookahead := by
  unfold Configuration.lookahead
  rw [shadows.remaining]

theorem exists_visible_top (shadows : left.Shadows input right) (table : ParseTable) :
    ∃ later, Reaches false table right later ∧ left.Shadows input later ∧
      later.configuration.stack.head? ≠ some .epsilon := by
  obtain ⟨later, reached, visible, stack, remaining, issues⟩ := Run.exists_visible_top table right
  exact ⟨later, reached, ⟨shadows.stack.trans stack.symm, shadows.remaining.trans remaining.symm,
    by rw [issues, shadows.issues], shadows.first, shadows.second.reaches reached⟩, visible⟩

/-- Two runs with a symbol on the top have the same there. -/
theorem top_eq (shadows : left.Shadows input right)
    (stack : left.configuration.stack = top :: below) (seen : top ≠ .epsilon)
    (visible : right.configuration.stack.head? ≠ some .epsilon) :
    ∃ lower, right.configuration.stack = top :: lower ∧
      withoutEpsilon below = withoutEpsilon lower := by
  have same := shadows.stack
  rw [stack, withoutEpsilon_cons seen] at same
  cases symbols : right.configuration.stack with
  | nil => simp [symbols] at same
  | cons other lower =>
    have shown : other ≠ .epsilon := by simpa [symbols] using visible
    rw [symbols, withoutEpsilon_cons shown] at same
    obtain ⟨rfl, rest⟩ := List.cons.inj same
    exact ⟨lower, rfl, rest⟩

/-- What one run does, the other does after it has dropped its empty strings. -/
theorem advances (same : first.ActsAs second) (shadows : left.Shadows input right)
    (stack : left.configuration.stack = top :: below)
    (advance : left.Advances guarded first top below next) :
    ∃ later, Reaches false second right later ∧ next.Shadows input later := by
  have accounted := shadows.first.advances stack advance
  by_cases empty : top = .epsilon
  · subst empty
    cases advance with
    | dropEpsilon =>
      refine ⟨right, .refl right, ?_, shadows.remaining, shadows.issues, accounted,
        shadows.second⟩
      simpa [stack] using shadows.stack
    | expand kind => cases kind
    | consume leaf => exact absurd rfl leaf.2
    | skipNonterminal kind => cases kind
    | skipLeaf leaf => exact absurd rfl leaf.2
  · obtain ⟨middle, reached, shadows, visible⟩ := shadows.exists_visible_top second
    obtain ⟨lower, symbols, rest⟩ := shadows.top_eq stack empty visible
    have lookahead := shadows.lookahead_eq
    have follows {later : Run} (advance : middle.Advances false second top lower later)
        (forms : withoutEpsilon next.configuration.stack =
          withoutEpsilon later.configuration.stack)
        (inputs : next.configuration.remaining = later.configuration.remaining)
        (issues : next.issues = [] ↔ later.issues = []) :
        ∃ later, Reaches false second right later ∧ next.Shadows input later :=
      ⟨later, reached.trans (.of_advances symbols advance), forms, inputs, issues, accounted,
        shadows.second.advances symbols advance⟩
    cases advance with
    | dropEpsilon nothing => exact absurd nothing empty
    | @expand production kind filled fresh =>
      obtain ⟨other, held, equal⟩ := same.filled (lookahead ▸ filled)
      refine follows (.expand kind held (by simp)) ?_ shadows.remaining shadows.issues
      simp [stack, symbols, rest, (Production.bare_eq.mp equal).2.2]
    | consume leaf matched more =>
      have other := (shadows.first.marked stack).1.ne_endOfInput more
      refine follows (.consume leaf (matched.trans lookahead) fun _ => other) ?_ ?_ shadows.issues
      · simp [stack, symbols, rest]
      · simp [shadows.remaining]
    | skipNonterminal kind vacant =>
      refine follows (.skipNonterminal kind (same.vacant (lookahead ▸ vacant))) ?_
        shadows.remaining (by simp [skip])
      simp [stack, symbols, rest]
    | skipLeaf leaf other =>
      refine follows (.skipLeaf leaf (lookahead ▸ other)) ?_ shadows.remaining (by simp [skip])
      simp [stack, symbols, rest]

theorem reaches (same : first.ActsAs second) (shadows : left.Shadows input right)
    (reached : Reaches guarded first left next) :
    ∃ later, Reaches false second right later ∧ next.Shadows input later := by
  induction reached with
  | refl => exact ⟨right, .refl right, shadows⟩
  | tail _ stepped ih =>
    obtain ⟨middle, half, shadows⟩ := ih
    obtain ⟨top, below, stack, advance⟩ := advances_of_step stepped
    obtain ⟨later, rest, shadows⟩ := shadows.advances same stack advance
    exact ⟨later, half.trans rest, shadows⟩

theorem ends (shadows : left.Shadows input right) (ends : left.Ends false first result) :
    ∃ limit other, right.result? false second limit = some (.ok other) ∧
      result.verdict = other.verdict := by
  obtain ⟨last, reached, shadows, visible⟩ := shadows.exists_visible_top second
  have finishes {other : ParseResult} (stepped : last.step false second = .ok (.inr other)) :
      ∃ limit, right.result? false second limit = some (.ok other) :=
    reached.result? (result?_of_end stepped)
  cases ends with
  | exhausted empty =>
    have nothing : last.configuration.stack = [] := by
      cases symbols : last.configuration.stack with
      | nil => rfl
      | cons top below =>
        have shown : top ≠ .epsilon := by simpa [symbols] using visible
        have same := shadows.stack
        rw [empty, symbols, withoutEpsilon_cons shown] at same
        cases same
    obtain ⟨limit, ended⟩ := finishes (step_nil nothing)
    exact ⟨limit, _, ended, rfl⟩
  | accepted bottom ending =>
    obtain ⟨lower, symbols, _⟩ := shadows.top_eq bottom (by decide) visible
    have alone : lower = [] := by
      rcases (shadows.second.marked symbols).1.cases with ⟨_, nothing⟩ | ⟨other, _⟩
      · exact nothing
      · exact absurd rfl other
    obtain ⟨limit, ended⟩ :=
      finishes (step_of_last (alone ▸ symbols) (shadows.lookahead_eq ▸ ending))
    refine ⟨limit, _, ended, ?_⟩
    simp [Run.accepted, finish, shadows.issues]
  | stalled _ _ _ strict => cases strict

end Shadows

end Run

namespace ParseTable.ActsAs

variable {left right : ParseTable}

/-- Without the guard, tables that act the same give the same verdict. -/
theorem verdict_eq (same : left.ActsAs right) (input : List Symbol) {limit : Nat}
    {result : ParseResult}
    (ended : (Run.initial left.grammar.start input).result? false left limit = some (.ok result)) :
    ∃ more other,
      (Run.initial right.grammar.start input).result? false right more = some (.ok other) ∧
        result.verdict = other.verdict := by
  obtain ⟨last, reached, ⟨_, _, failed⟩ | ⟨_, stepped, equal⟩⟩ := Run.exists_last_of_result? ended
  · cases failed
  · cases equal
    have accounted := Run.Accounted.initial
      (Grammar.isNonterminal_of_mem left.grammar.start_mem) input
    have shadows : (Run.initial left.grammar.start input).Shadows input
        (Run.initial right.grammar.start input) := by
      rw [← same.start]
      exact ⟨rfl, rfl, Iff.rfl, accounted, accounted⟩
    obtain ⟨later, onward, shadows⟩ := shadows.reaches same reached
    obtain ⟨limit, other, final, verdict⟩ := shadows.ends (Run.ends_of_step stepped)
    obtain ⟨more, ended⟩ := onward.result? final
    exact ⟨more, other, ended, verdict⟩

end ParseTable.ActsAs

namespace Grammar

/-- Bringing right-hand sides into their normal form keeps every verdict, unless the first parse
stalls where a symbol comes right behind one of its own that has vanished by an empty right-hand
side. -/
theorem normalizing_keeps_verdict {productions : List Production} {start : Symbol}
    {grammar : Grammar} (built : ofProductions productions start = .ok grammar) :
    ∃ normal, ofProductions (productions.map Production.normalized) start = .ok normal ∧
      ∀ (names : List String) (limit more : Nat) (first second : ParseResult),
        (Analysis.new grammar .fixedPoint).table.parseNames? limit names = some (.ok first) →
        (Analysis.new normal .fixedPoint).table.parseNames? more names = some (.ok second) →
        ¬first.StallsOnNothing grammar → first.verdict = second.verdict := by
  refine ⟨grammar.normalized, ofProductions_normalized built, ?_⟩
  intro names limit more first second parsed normal fair
  rw [Analysis.table_new] at parsed normal
  have same := grammar.saysAs_normalized.actsAs
  obtain ⟨_, last, reached, ends⟩ := ParseTable.exists_last_of_parseNames? parsed
  obtain ⟨_, final, onward, closes⟩ := ParseTable.exists_last_of_parseNames? normal
  have left := ends.unguarded reached (Run.grounded_initial _ _).anchored fair
  have right := closes.unguarded onward (Run.grounded_initial _ _).anchored <| by
    rintro ⟨production, declared, nothing, _⟩
    exact rhs_ne_nil_of_normalized declared nothing
  -- both parses are those without the guard, or both were stopped by it
  rcases left with ⟨_, ended⟩ | ⟨rejected, endless⟩
  · obtain ⟨_, other, halted, verdict⟩ := same.verdict_eq _ ended
    rcases right with ⟨_, finished⟩ | ⟨_, endless⟩
    · cases Run.result?_unique halted finished
      exact verdict
    · rw [endless] at halted
      cases halted
  · rcases right with ⟨_, finished⟩ | ⟨refused, _⟩
    · obtain ⟨_, other, halted, _⟩ := same.symm.verdict_eq _ finished
      rw [endless] at halted
      cases halted
    · rw [rejected, refused]

end Grammar

/-- One right-hand side has the empty string beside other symbols, another is empty. -/
def tailSample : Grammar where
  productions :=
    [⟨1, .nonterminal "S", [.terminal "a", .epsilon, .nonterminal "S"]⟩,
     ⟨2, .nonterminal "S", []⟩]
  start := .nonterminal "S"
  sound := by decide

/-- Two symbols that vanish by an empty right-hand side, one right behind the other. -/
def twinSample : Grammar where
  productions :=
    [⟨1, .nonterminal "S", [.nonterminal "A", .nonterminal "A"]⟩, ⟨2, .nonterminal "A", []⟩]
  start := .nonterminal "S"
  sound := by decide

namespace Grammar

/-- The table of a grammar whose cells are known to be filled without a conflict. -/
theorem table_of_filling {grammar : Grammar} {cells : List Cell}
    (filled : (grammar.filling .fixedPoint).cells = cells)
    (fine : (grammar.filling .fixedPoint).conflicts = []) :
    (Analysis.new grammar .fixedPoint).table = ⟨grammar, cells, []⟩ := by
  rw [Analysis.table_new, parseTable, filled, fine]

theorem normalizing_keeps_verdict_tail :
    ofProductions tailSample.productions (.nonterminal "S") = .ok tailSample ∧
      ∃ normal, ofProductions (tailSample.productions.map Production.normalized)
          (.nonterminal "S") = .ok normal ∧
        ∃ first second,
          (Analysis.new tailSample .fixedPoint).table.parseNames? 9 ["a"] = some (.ok first) ∧
          (Analysis.new normal .fixedPoint).table.parseNames? 9 ["a"] = some (.ok second) ∧
          ¬first.StallsOnNothing tailSample ∧ first.verdict = second.verdict := by
  have built : ofProductions tailSample.productions (.nonterminal "S") = .ok tailSample := rfl
  have table : (Analysis.new tailSample .fixedPoint).table =
      ⟨tailSample, [⟨.nonterminal "S", .terminal "a", 1⟩, ⟨.nonterminal "S", .endOfInput, 2⟩],
        []⟩ :=
    table_of_filling (by decide +kernel) (by decide +kernel)
  have normalTable : (Analysis.new tailSample.normalized .fixedPoint).table =
      ⟨tailSample.normalized,
        [⟨.nonterminal "S", .terminal "a", 1⟩, ⟨.nonterminal "S", .endOfInput, 2⟩], []⟩ :=
    table_of_filling (by decide +kernel) (by decide +kernel)
  obtain ⟨first, parsed, final⟩ : ∃ first,
      (Analysis.new tailSample .fixedPoint).table.parseNames? 9 ["a"] = some (.ok first) ∧
        first.trace.getLast?.map (·.action.kind) = some .accept := by
    rw [table]
    exact ⟨_, rfl, rfl⟩
  obtain ⟨second, repeated⟩ : ∃ second,
      (Analysis.new tailSample.normalized .fixedPoint).table.parseNames? 9 ["a"] =
        some (.ok second) := by
    rw [normalTable]
    exact ⟨_, rfl⟩
  have fair : ¬first.StallsOnNothing tailSample := by
    rintro ⟨_, _, _, earlier, expansion, stall, trace, _, stalled⟩
    simp [trace, stalled] at final
  obtain ⟨normal, built', keeps⟩ := normalizing_keeps_verdict built
  obtain rfl : tailSample.normalized = normal := by
    simpa using (ofProductions_normalized built).symm.trans built'
  exact ⟨built, _, built', first, second, parsed, repeated, fair,
    keeps _ _ _ _ _ parsed repeated fair⟩

/-- The guard stops the second of two symbols of one name after the first has vanished by an empty
right-hand side, and lets it pass where the empty string is written. -/
theorem empty_right_hand_side_stalls :
    ¬∀ (productions : List Production) (start : Symbol) (grammar normal : Grammar),
      ofProductions productions start = .ok grammar →
      ofProductions (productions.map Production.normalized) start = .ok normal →
      ∀ (names : List String) (limit more : Nat) (first second : ParseResult),
        (Analysis.new grammar .fixedPoint).table.parseNames? limit names = some (.ok first) →
        (Analysis.new normal .fixedPoint).table.parseNames? more names = some (.ok second) →
        first.verdict = second.verdict := by
  intro keeps
  have built : ofProductions twinSample.productions (.nonterminal "S") = .ok twinSample := rfl
  have table : (Analysis.new twinSample .fixedPoint).table =
      ⟨twinSample, [⟨.nonterminal "S", .endOfInput, 1⟩, ⟨.nonterminal "A", .endOfInput, 2⟩],
        []⟩ :=
    table_of_filling (by decide +kernel) (by decide +kernel)
  have normalTable : (Analysis.new twinSample.normalized .fixedPoint).table =
      ⟨twinSample.normalized,
        [⟨.nonterminal "S", .endOfInput, 1⟩, ⟨.nonterminal "A", .endOfInput, 2⟩], []⟩ :=
    table_of_filling (by decide +kernel) (by decide +kernel)
  obtain ⟨first, parsed, stalled⟩ : ∃ first,
      (Analysis.new twinSample .fixedPoint).table.parseNames? 9 [] = some (.ok first) ∧
        first.verdict = .reject := by
    rw [table]
    exact ⟨_, rfl, rfl⟩
  obtain ⟨second, repeated, accepted⟩ : ∃ second,
      (Analysis.new twinSample.normalized .fixedPoint).table.parseNames? 9 [] =
        some (.ok second) ∧ second.verdict = .accept := by
    rw [normalTable]
    exact ⟨_, rfl, rfl⟩
  have same := keeps _ _ _ _ built (ofProductions_normalized built) _ _ _ _ _ parsed repeated
  rw [stalled, accepted] at same
  cases same

end Grammar

end Predictive
