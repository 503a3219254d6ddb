import Predictive.Proofs.ExactSets
import Predictive.Proofs.Predictions
import Predictive.Proofs.Repetition
import Predictive.Proofs.RunDerivation

/-! Tables without conflicts. A cell holds the one production that derives what its lookahead
begins, so every run without the guard comes to an end: a non-terminal on the top is skipped, or it
vanishes before the lookahead, or the lookahead begins it and is consumed. -/

set_option autoImplicit false

namespace Predictive

namespace Grammar

variable {grammar : Grammar} {production : Production} {lookahead : Symbol}

/-- A lookahead predicts a production if it begins what the right-hand side derives or, where that
can vanish, stands behind the left-hand side. -/
def Predicts (grammar : Grammar) (production : Production) (lookahead : Symbol) : Prop :=
  (grammar.Opens lookahead production.rhs ∧ lookahead ≠ .epsilon) ∨
    (grammar.Opens .epsilon production.rhs ∧ grammar.Trails lookahead production.lhs)

theorem mem_lookaheadsOf_iff_predicts (declared : production ∈ grammar.productions) :
    lookahead ∈ grammar.lookaheadsOf (grammar.firstSets .fixedPoint)
        (grammar.followAssignment .fixedPoint) production ↔
      grammar.Predicts production lookahead := by
  have follow : lookahead ∈ (grammar.followAssignment .fixedPoint).get production.lhs ↔
      grammar.Trails lookahead production.lhs :=
    mem_followByPasses_iff (.empty 0 0) (isNonterminal_lhs declared)
  rw [mem_lookaheadsOf, follow]
  unfold Predicts
  rw [← mem_firstByPasses_iff_opens, ← mem_firstByPasses_iff_opens]
  rfl

/-- What comes next in a form that is derived predicts the production that is applied. -/
theorem predicts_of_derives {front rest word : List Symbol}
    (reached : grammar.Derives [grammar.start] (front ++ production.lhs :: rest))
    (derived : grammar.Derives (withoutEpsilon production.rhs ++ rest) word)
    (clean : ∀ symbol ∈ word.head?, symbol.IsLeaf ∧ symbol ≠ .endOfInput) :
    grammar.Predicts production (word.headD .endOfInput) := by
  -- the next symbol comes from the right-hand side, unless that vanishes
  obtain ⟨first, second, rfl, own, later⟩ := derived.of_append
  cases first with
  | cons symbol tail =>
    have leaf := (clean symbol (by simp)).1
    exact .inl ⟨opens_of_derives leaf own, leaf.2⟩
  | nil =>
    refine .inr ⟨opens_epsilon_of_derives own, ?_⟩
    have behind : grammar.Derives [grammar.start] (front ++ production.lhs :: second) :=
      reached.trans ((later.append_left [production.lhs]).append_left front)
    cases second with
    | nil => exact .inl ⟨rfl, front, behind⟩
    | cons symbol tail =>
      obtain ⟨leaf, other⟩ := clean symbol (by simp)
      exact .inr ⟨other, leaf, grammar.start, grammar.start_mem, front, tail, behind⟩

theorem Begins.ne_endOfInput {symbol : Symbol} (begins : grammar.Begins lookahead symbol)
    (kind : symbol.kind ≠ .endOfInput) : lookahead ≠ .endOfInput := by
  induction begins with
  | self => exact fun same => kind (by rw [same]; rfl)
  | expand declared split _ _ ih => exact ih (kind_ne_endOfInput declared (by simp [split]))

/-- A predicted production begins with the lookahead, or vanishes before it. -/
theorem Predicts.begins_or_vanishes (declared : production ∈ grammar.productions)
    (predicts : grammar.Predicts production lookahead) :
    (grammar.Begins lookahead production.lhs ∧ lookahead ≠ .endOfInput) ∨
      (grammar.Vanishes production.lhs ∧ grammar.Trails lookahead production.lhs) := by
  rcases predicts with ⟨opens, visible⟩ | ⟨empty, trails⟩
  · rcases opens with ⟨same, _⟩ | ⟨before, symbol, after, split, vanish, begins⟩
    · exact absurd same visible
    · exact .inl ⟨.expand declared split vanish begins,
        begins.ne_endOfInput (kind_ne_endOfInput declared (by simp [split]))⟩
  · rcases empty with ⟨_, all⟩ | ⟨_, _, _, _, _, begins⟩
    · exact .inr ⟨.expand declared all, trails⟩
    · exact absurd rfl begins.isLeaf.2

end Grammar

namespace ParseTable

/-- Every cell holds the production that its lookahead predicts, if there is one. -/
structure Deterministic (table : ParseTable) : Prop where
  filled : ∀ production ∈ table.grammar.productions, ∀ lookahead,
    table.grammar.Predicts production lookahead →
      table.at? production.lhs lookahead = some production.id
  predicted : ∀ nonterminal lookahead id, table.at? nonterminal lookahead = some id →
    ∃ production ∈ table.grammar.productions, production.id = id ∧ production.lhs = nonterminal ∧
      table.grammar.Predicts production lookahead

theorem deterministic_of_isLL1 {grammar : Grammar}
    (clean : (grammar.parseTable .fixedPoint).isLL1 = true) :
    (grammar.parseTable .fixedPoint).Deterministic where
  filled := by
    intro production declared lookahead predicts
    exact Grammar.at?_parseTable_of_isLL1 clean declared
      ((Grammar.mem_lookaheadsOf_iff_predicts declared).mpr predicts)
  predicted := by
    intro nonterminal lookahead id filled
    obtain ⟨production, declared, same, owner, inside⟩ := Grammar.exists_of_at?_parseTable filled
    exact ⟨production, declared, same, owner,
      (Grammar.mem_lookaheadsOf_iff_predicts declared).mp inside⟩

namespace Deterministic

variable {table : ParseTable} {production : Production} {lookahead symbol : Symbol}

theorem faithful (deterministic : table.Deterministic) : table.Faithful := by
  intro nonterminal lookahead id filled
  obtain ⟨production, declared, same, owner, _⟩ :=
    deterministic.predicted nonterminal lookahead id filled
  exact ⟨production, declared, same, owner⟩

theorem productionAt_of_predicts (deterministic : table.Deterministic)
    (declared : production ∈ table.grammar.productions)
    (predicts : table.grammar.Predicts production lookahead) :
    table.productionAt production.lhs lookahead = .ok (some production) := by
  unfold productionAt Grammar.production
  rw [deterministic.filled production declared lookahead predicts]
  dsimp only
  rw [Grammar.production?_eq_some.mpr ⟨declared, rfl⟩]
  rfl

theorem predicts_of_productionAt (deterministic : table.Deterministic)
    (filled : table.productionAt symbol lookahead = .ok (some production)) :
    production ∈ table.grammar.productions ∧ production.lhs = symbol ∧
      table.grammar.Predicts production lookahead := by
  obtain ⟨cell, declared⟩ := productionAt_eq_some filled
  obtain ⟨other, known, same, owner, predicts⟩ := deterministic.predicted _ _ _ cell
  obtain rfl := Grammar.eq_of_id_eq known declared same
  exact ⟨known, owner, predicts⟩

theorem productionAt_ne_error (deterministic : table.Deterministic) {cause : Error} :
    table.productionAt symbol lookahead ≠ .error cause := by
  intro failed
  unfold productionAt at failed
  cases cell : table.at? symbol lookahead with
  | none => simp [cell] at failed
  | some id =>
    obtain ⟨production, declared, rfl, _⟩ := deterministic.predicted _ _ _ cell
    simp [cell, Grammar.production, Grammar.production?_eq_some.mpr ⟨declared, rfl⟩,
      Except.map] at failed

end Deterministic

end ParseTable

namespace Run

variable {table : ParseTable} {lookahead symbol : Symbol}

/-! ### Symbols that vanish or are consumed -/

/-- A run takes a symbol off its stack before a lookahead without consuming it. -/
def Pops (table : ParseTable) (lookahead symbol : Symbol) : Prop :=
  ∀ (run : Run) (below : List Symbol), run.configuration.stack = symbol :: below →
    run.configuration.lookahead = lookahead →
    ∃ later, Reaches false table run later ∧ later.configuration.stack = below ∧
      later.configuration.remaining = run.configuration.remaining

theorem lookahead_eq {run later : Run}
    (kept : later.configuration.remaining = run.configuration.remaining) :
    later.configuration.lookahead = run.configuration.lookahead := by
  unfold Configuration.lookahead
  rw [kept]

theorem pops_all {symbols : List Symbol} (each : ∀ symbol ∈ symbols, Pops table lookahead symbol)
    (run : Run) (below : List Symbol) (stack : run.configuration.stack = symbols ++ below)
    (seen : run.configuration.lookahead = lookahead) :
    ∃ later, Reaches false table run later ∧ later.configuration.stack = below ∧
      later.configuration.remaining = run.configuration.remaining := by
  induction symbols generalizing run with
  | nil => exact ⟨run, .refl run, stack, rfl⟩
  | cons first rest ih =>
    obtain ⟨own, others⟩ := List.forall_mem_cons.mp each
    obtain ⟨middle, reached, half, same⟩ := own run (rest ++ below) stack seen
    obtain ⟨later, final, popped, kept⟩ := ih others middle half ((lookahead_eq same).trans seen)
    exact ⟨later, reached.trans final, popped, kept.trans same⟩

/-- The production that the lookahead predicts replaces its left-hand side. -/
theorem reaches_expansion (deterministic : table.Deterministic) {production : Production}
    (declared : production ∈ table.grammar.productions) {run : Run} {below : List Symbol}
    (predicts : table.grammar.Predicts production run.configuration.lookahead)
    (stack : run.configuration.stack = production.lhs :: below) :
    ∃ next, Reaches false table run next ∧ next.configuration.stack = production.rhs ++ below ∧
      next.configuration.remaining = run.configuration.remaining ∧ next.issues = run.issues ∧
      expansions next.steps = expansions run.steps ++ [production] := by
  have kind := Grammar.isNonterminal_lhs declared
  have filled := deterministic.productionAt_of_predicts declared predicts
  exact ⟨_, .of_advances stack (.expand kind filled (by simp)), by simp [stack], rfl, rfl, by simp⟩

/-- A symbol that vanishes is popped before whatever stands behind it. -/
theorem pops_of_vanishes (deterministic : table.Deterministic)
    (vanishes : table.grammar.Vanishes symbol)
    (trails : symbol.isNonterminal = true → table.grammar.Trails lookahead symbol) :
    Pops table lookahead symbol := by
  induction vanishes with
  | epsilon =>
    intro run below stack _
    exact ⟨_, .of_advances stack (.dropEpsilon rfl), by simp [stack], rfl⟩
  | @expand production declared all ih =>
    -- the cell holds the very production by which the symbol vanishes
    intro run below stack seen
    have behind := trails (Grammar.isNonterminal_lhs declared)
    obtain ⟨next, first, pushed, same, _⟩ := reaches_expansion deterministic declared
      (.inr ⟨.inl ⟨rfl, all⟩, by rwa [seen]⟩) stack
    have each : ∀ symbol ∈ production.rhs, Pops table lookahead symbol := by
      intro symbol member
      apply ih symbol member
      intro kind
      obtain ⟨before, after, split⟩ := List.append_of_mem member
      have occurs : ⟨production.lhs, symbol, after⟩ ∈ table.grammar.occurrences :=
        Grammar.mem_occurrences.mpr ⟨kind, production, declared, rfl, before, split⟩
      refine .of_occurrence occurs (Grammar.derives_nil_of_all ?_) behind
      intro other inside
      exact (all other (by simp [split, inside])).derives
    obtain ⟨later, reached, popped, kept⟩ :=
      pops_all each next below pushed ((lookahead_eq same).trans seen)
    exact ⟨later, first.trans reached, popped, kept.trans same⟩

/-- A lookahead that begins the symbol on the top is consumed. -/
theorem consumes_of_begins (deterministic : table.Deterministic)
    (begins : table.grammar.Begins lookahead symbol) (other : lookahead ≠ .endOfInput) (run : Run)
    {below : List Symbol} (stack : run.configuration.stack = symbol :: below)
    (seen : run.configuration.lookahead = lookahead) :
    ∃ later, Reaches false table run later ∧
      later.configuration.remaining.length < run.configuration.remaining.length := by
  induction begins generalizing run below with
  | self leaf =>
    refine ⟨_, .of_advances stack (.consume leaf seen.symm fun _ => other), ?_⟩
    cases remaining : run.configuration.remaining with
    | nil => exact absurd (by simp [← seen, Configuration.lookahead, remaining]) other
    | cons first rest => simp [remaining]
  | @expand production declared before after symbol split vanish begins ih =>
    obtain ⟨next, first, pushed, same, _⟩ := reaches_expansion deterministic declared
      (.inl (by
        rw [seen]
        exact ⟨.inr ⟨before, symbol, after, split, vanish, begins⟩, begins.isLeaf.2⟩)) stack
    -- what stands before the symbol vanishes, and the lookahead begins what is behind it
    have each : ∀ symbol ∈ before, Pops table lookahead symbol := by
      intro early member
      apply pops_of_vanishes deterministic (vanish early member)
      intro kind
      obtain ⟨left, right, rfl⟩ := List.append_of_mem member
      have occurs : ⟨production.lhs, early, right ++ symbol :: after⟩ ∈ table.grammar.occurrences :=
        Grammar.mem_occurrences.mpr ⟨kind, production, declared, rfl, left, by simp [split]⟩
      obtain ⟨rest, derived⟩ := begins.derives
      refine .of_first occurs other begins.isLeaf
        (Grammar.derives_of_begins (fun inner inside => vanish inner ?_) begins.visible derived)
      simp [inside]
    obtain ⟨middle, reached, half, kept⟩ :=
      pops_all each next (symbol :: after ++ below) (by simp [pushed, split])
        ((lookahead_eq same).trans seen)
    have unread := kept.trans same
    obtain ⟨later, final, less⟩ := ih middle half ((lookahead_eq unread).trans seen)
    refine ⟨later, (first.trans reached).trans final, ?_⟩
    rwa [unread] at less

end Run

namespace ParseTable.Deterministic

variable {table : ParseTable}

/-- A run either ends or comes to one with less input, or with no more input and a lower stack. -/
theorem progress (deterministic : table.Deterministic) (run : Run) :
    (∃ result, run.step false table = .ok (.inr result)) ∨
      ∃ later, Run.Reaches false table run later ∧
        (later.configuration.remaining.length < run.configuration.remaining.length ∨
          (later.configuration.remaining.length ≤ run.configuration.remaining.length ∧
            later.configuration.stack.length < run.configuration.stack.length)) := by
  cases stack : run.configuration.stack with
  | nil => exact .inl ⟨_, Run.step_nil stack⟩
  | cons top below =>
    rcases Run.step_cases false table stack with
      ⟨next, stepped, advance⟩ | ⟨result, stepped, _⟩ | ⟨cause, _, _, failed⟩
    · right
      have reached : Run.Reaches false table run next := .single stepped
      cases advance with
      | dropEpsilon | skipNonterminal | skipLeaf =>
        exact ⟨_, reached, .inr ⟨by simp, by simp [stack]⟩⟩
      | consume => exact ⟨_, reached, .inr ⟨by simp, by simp [stack]⟩⟩
      | expand kind filled fresh =>
        -- the stack may grow at first: the run goes on until the symbol is consumed or vanishes
        obtain ⟨declared, rfl, predicts⟩ := deterministic.predicts_of_productionAt filled
        rcases predicts.begins_or_vanishes declared with ⟨begins, other⟩ | ⟨vanishes, trails⟩
        · obtain ⟨later, final, less⟩ :=
            Run.consumes_of_begins deterministic begins other run stack rfl
          exact ⟨later, final, .inl less⟩
        · obtain ⟨later, final, popped, kept⟩ :=
            Run.pops_of_vanishes deterministic vanishes (fun _ => trails) run below stack rfl
          exact ⟨later, final, .inr ⟨by simp [kept], by simp [popped]⟩⟩
    · exact .inl ⟨result, stepped⟩
    · exact absurd failed deterministic.productionAt_ne_error

theorem halts (deterministic : table.Deterministic) (run : Run) :
    ∃ limit result, run.result? false table limit = some (.ok result) := by
  rcases deterministic.progress run with ⟨result, stepped⟩ | ⟨later, reached, smaller⟩
  · exact ⟨1, result, Run.result?_of_end stepped⟩
  · obtain ⟨limit, result, ended⟩ := deterministic.halts later
    obtain ⟨more, ended⟩ := reached.result? ended
    exact ⟨more, result, ended⟩
termination_by (run.configuration.remaining.length, run.configuration.stack.length)
decreasing_by
  rcases smaller with less | ⟨same, less⟩
  · exact Prod.Lex.left _ _ less
  · exact Prod.Lex.right' _ same less

end ParseTable.Deterministic

end Predictive
