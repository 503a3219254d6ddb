import Predictive.Proofs.Determinism
import Predictive.Proofs.Leftmost

/-! What a table without conflicts recognizes. A run follows every leftmost derivation of its input,
so it accepts what is derived, and the productions by which it expands are the only leftmost
derivation there is. On everything else it ends as well, without a stall and without acceptance. -/

set_option autoImplicit false

namespace Predictive

namespace ParseTable.Deterministic

variable {table : ParseTable}

/-- A run follows a leftmost derivation of the rest of its input to the end. -/
theorem follows_leftmost (deterministic : table.Deterministic) (run : Run)
    (front pending : List Symbol) {word : List Symbol} {derivation : List Production}
    (stack : run.configuration.stack = pending ++ [.endOfInput])
    (remaining : run.configuration.remaining = word ++ [.endOfInput])
    (clean : ∀ symbol ∈ word, symbol.IsLeaf ∧ symbol ≠ .endOfInput)
    (reached : table.grammar.Derives [table.grammar.start] (front ++ withoutEpsilon pending))
    (leftmost : table.grammar.LeftmostDerives (withoutEpsilon pending) derivation word) :
    ∃ last, Run.Reaches false table run last ∧ last.configuration.stack = [.endOfInput] ∧
      last.configuration.lookahead = .endOfInput ∧ last.issues = run.issues ∧
      expansions last.steps = expansions run.steps ++ derivation := by
  have seen := Run.lookahead_of_remaining remaining
  cases pending with
  | nil =>
    obtain ⟨rfl, rfl⟩ := leftmost.of_nil
    exact ⟨run, .refl run, stack, seen, rfl, by simp⟩
  | cons top pending =>
    by_cases empty : top = .epsilon
    · subst empty
      rw [withoutEpsilon_epsilon_cons] at reached leftmost
      obtain ⟨last, final, ends⟩ := deterministic.follows_leftmost
        ((run.record ⟨.epsilon, none⟩).moveTo run.configuration.pop) front pending
        (by simp [stack]) remaining clean reached leftmost
      exact ⟨last, .trans (.of_advances stack (.dropEpsilon rfl)) final, by simpa using ends⟩
    · rw [withoutEpsilon_cons empty] at reached leftmost
      cases kind : top.isNonterminal with
      | true =>
        have terminated : ∀ symbol ∈ word, symbol.isNonterminal = false := fun symbol member =>
          (clean symbol member).1.1
        obtain ⟨production, declared, others, rfl, rfl, rest⟩ :=
          leftmost.of_nonterminal kind terminated
        -- the derivation applies the production that the next symbol of the word predicts
        have predicts : table.grammar.Predicts production run.configuration.lookahead := by
          rw [seen]
          exact Grammar.predicts_of_derives reached rest.derives fun symbol member =>
            clean symbol (List.mem_of_head? member)
        obtain ⟨next, first, pushed, kept, issues, applied⟩ :=
          Run.reaches_expansion deterministic declared predicts stack
        have onward : table.grammar.Derives [table.grammar.start]
            (front ++ withoutEpsilon (production.rhs ++ pending)) := by
          have step := (Grammar.Derives.of_production declared).append_right
            (withoutEpsilon pending)
          simpa using reached.trans (step.append_left front)
        obtain ⟨last, final, bottom, ending, same, whole⟩ := deterministic.follows_leftmost
          next front (production.rhs ++ pending) (by simp [pushed])
          (kept.trans remaining) clean onward (by simpa using rest)
        exact ⟨last, first.trans final, bottom, ending, same.trans issues, by simp [whole, applied]⟩
      | false =>
        obtain ⟨tail, rfl, rest⟩ := leftmost.of_leaf kind
        obtain ⟨⟨leaf, other⟩, later⟩ := List.forall_mem_cons.mp clean
        have onward : table.grammar.Derives [table.grammar.start]
            ((front ++ [top]) ++ withoutEpsilon pending) := by
          simpa using reached
        obtain ⟨last, final, ends⟩ := deterministic.follows_leftmost
          ((run.record ⟨.matched, none⟩).moveTo run.configuration.consume) (front ++ [top]) pending
          (by simp [stack]) (by simp [remaining]) later onward rest
        exact ⟨last, .trans (.of_advances stack (.consume leaf seen.symm fun _ => other)) final,
          by simpa using ends⟩
-- an expansion uses up a production, every other advance a pending symbol
termination_by (derivation.length, pending.length)

variable {word : List Symbol}

/-- A word that is derived leftmost is accepted, and its expansions are the derivation. -/
theorem accepts_leftmost (deterministic : table.Deterministic)
    (clean : ∀ symbol ∈ word, symbol.IsLeaf ∧ symbol ≠ .endOfInput) {derivation : List Production}
    (leftmost : table.grammar.LeftmostDerives [table.grammar.start] derivation word) :
    ∃ limit result,
      (Run.initial table.grammar.start word).result? false table limit = some (.ok result) ∧
        result.verdict = .accept ∧ expansions result.trace = derivation := by
  have start := Grammar.isNonterminal_of_mem table.grammar.start_mem
  have visible : withoutEpsilon [table.grammar.start] = [table.grammar.start] :=
    withoutEpsilon_cons (Symbol.ne_epsilon_of_isNonterminal start) []
  obtain ⟨last, reached, bottom, ending, issues, applied⟩ := deterministic.follows_leftmost
    (Run.initial table.grammar.start word) [] [table.grammar.start] rfl rfl clean
    (by rw [visible]; exact .refl _) (by rw [visible]; exact leftmost)
  obtain ⟨limit, ended⟩ := reached.result? (Run.result?_of_end (Run.step_of_last bottom ending))
  refine ⟨limit, last.accepted, ended, ?_, ?_⟩
  · have none : last.issues = [] := issues
    simp [Run.accepted, Run.finish, none]
  · rw [Run.trace_accepted]
    simpa using applied

/-- Without the guard the run ends, so the guard never stops it. -/
theorem exists_parse (deterministic : table.Deterministic)
    (nonempty : ∀ production ∈ table.grammar.productions, production.rhs ≠ []) {names : List String}
    (free : ∀ name ∈ names, Symbol.isReservedName name = false) :
    ∃ limit result,
      (Run.initial table.grammar.start (names.map Symbol.terminal)).result? false table limit =
        some (.ok result) ∧
      table.parseNames? limit names = some (.ok result) := by
  obtain ⟨limit, result, ended⟩ :=
    deterministic.halts (Run.initial table.grammar.start (names.map Symbol.terminal))
  refine ⟨limit, result, ended, ?_⟩
  rw [parseNames?_eq free]
  exact (Run.grounded_initial _ _).result?_guarded nonempty ended

end ParseTable.Deterministic

namespace Analysis

/-- A parse over a table without conflicts ends, without a stall, and accepts exactly what the start
symbol derives; the productions by which it expands are then the one leftmost derivation. -/
theorem conflict_free_parse_decides_language {rules : List Rule} {start : Option String}
    {policy : NamePolicy} {grammar : Grammar}
    (built : Grammar.ofRules rules start policy = .ok grammar)
    (clean : (Analysis.new grammar .fixedPoint).isLL1 = true) (names : List String)
    (free : ∀ name ∈ names, Symbol.isReservedName name = false) :
    ∃ result : ParseResult,
      (∃ limit,
        (Analysis.new grammar .fixedPoint).table.parseNames? limit names = some (.ok result)) ∧
      (∀ step ∈ result.trace, step.action.kind ≠ .stall) ∧
      (result.verdict = .accept ↔
        grammar.Derives [grammar.start] (names.map Symbol.terminal)) ∧
      (result.verdict = .accept → ∀ derivation,
        grammar.LeftmostDerives [grammar.start] derivation (names.map Symbol.terminal) ↔
          derivation = expansions result.trace) := by
  unfold Analysis.isLL1 at clean
  rw [Analysis.table_new] at clean ⊢
  have deterministic := ParseTable.deterministic_of_isLL1 clean
  obtain ⟨limit, result, ended, parsed⟩ :=
    deterministic.exists_parse (Grammar.rhs_ne_nil_of_ofRules built) free
  have follows : ∀ derivation,
      grammar.LeftmostDerives [grammar.start] derivation (names.map Symbol.terminal) →
        result.verdict = .accept ∧ derivation = expansions result.trace := by
    intro derivation leftmost
    obtain ⟨_, other, final, accepted, applied⟩ :=
      deterministic.accepts_leftmost clean_of_mem_terminals leftmost
    cases Run.result?_unique ended final
    exact ⟨accepted, applied.symm⟩
  have derived : result.verdict = .accept →
      grammar.Derives [grammar.start] (names.map Symbol.terminal) :=
    ParseTable.derives_of_accept deterministic.faithful parsed
  have exists_leftmost : grammar.Derives [grammar.start] (names.map Symbol.terminal) →
      ∃ derivation, grammar.LeftmostDerives [grammar.start] derivation (names.map Symbol.terminal) :=
    fun derives =>
      derives.leftmost fun symbol member => (clean_of_mem_terminals symbol member).1.1
  refine ⟨result, ⟨limit, parsed⟩, ?_, ⟨derived, ?_⟩, ?_⟩
  · exact Run.unstalled_of_result? (by simp) ended
  · intro derives
    obtain ⟨derivation, leftmost⟩ := exists_leftmost derives
    exact (follows derivation leftmost).1
  · intro accepted derivation
    obtain ⟨only, leftmost⟩ := exists_leftmost (derived accepted)
    constructor
    · exact fun other => (follows derivation other).2
    · rintro rfl
      rw [← (follows only leftmost).2]
      exact leftmost

end Analysis

/-- Sums of one letter: a non-terminal that can vanish, and one that never does. -/
def sumRules : List Rule :=
  [⟨"E", ["T", "R"]⟩, ⟨"R", ["+", "T", "R"]⟩, ⟨"R", []⟩, ⟨"T", ["a"]⟩]

def sumSample : Grammar where
  productions :=
    [⟨1, .nonterminal "E", [.nonterminal "T", .nonterminal "R"]⟩,
     ⟨2, .nonterminal "R", [.terminal "+", .nonterminal "T", .nonterminal "R"]⟩,
     ⟨3, .nonterminal "R", [.epsilon]⟩,
     ⟨4, .nonterminal "T", [.terminal "a"]⟩]
  start := .nonterminal "E"
  sound := by decide

namespace Analysis

theorem conflict_free_parse_decides_language_sum :
    Grammar.ofRules sumRules none {} = .ok sumSample ∧
      (Analysis.new sumSample .fixedPoint).isLL1 = true ∧
      ∃ result : ParseResult,
        (∃ limit, (Analysis.new sumSample .fixedPoint).table.parseNames? limit ["a", "+", "a"] =
          some (.ok result)) ∧
        (∀ step ∈ result.trace, step.action.kind ≠ .stall) ∧
        (result.verdict = .accept ↔
          sumSample.Derives [.nonterminal "E"] [.terminal "a", .terminal "+", .terminal "a"]) ∧
        (result.verdict = .accept → ∀ derivation,
          sumSample.LeftmostDerives [.nonterminal "E"] derivation
              [.terminal "a", .terminal "+", .terminal "a"] ↔
            derivation = expansions result.trace) := by
  have built : Grammar.ofRules sumRules none {} = .ok sumSample := by cbv
  have clean : (Analysis.new sumSample .fixedPoint).isLL1 = true := by decide +kernel
  exact ⟨built, clean,
    conflict_free_parse_decides_language built clean ["a", "+", "a"] (by decide)⟩

end Analysis

end Predictive
