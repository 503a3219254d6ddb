import Predictive.Proofs.Predictions
import Predictive.Proofs.StartSymbols
import Predictive.Workflow.Answer

/-! A workflow does not show how it came to where it stands. The steps may be taken in any order,
with another text or other options in between, and some of them are refused; whoever knows which
productions were read last, and which start symbol was chosen since, knows every later answer. -/

set_option autoImplicit false

namespace Predictive

namespace Analysis

/-- The analysis of productions from a start symbol, under the strategy of a name. -/
def ofProductions (productions : List Production) (start strategy : String) :
    Except Error Analysis :=
  match Grammar.ofProductions productions (.nonterminal start) with
  | .error cause => .error (.grammar cause)
  | .ok grammar => (Strategy.ofName strategy).map (new grammar)

theorem grammar_new (grammar : Grammar) (strategy : Strategy) :
    (new grammar strategy).grammar = grammar :=
  congrArg ParseTable.grammar (table_new grammar strategy)

theorem grammar_of_ofProductions {productions : List Production} {start strategy : String}
    {analysis : Analysis} (made : ofProductions productions start strategy = .ok analysis) :
    analysis.grammar.productions = productions ∧
      analysis.grammar.start = .nonterminal start := by
  unfold ofProductions at made
  split at made
  · cases made
  · rename_i grammar built
    cases known : Strategy.ofName strategy with
    | error cause => rw [known] at made; cases made
    | ok strategy =>
      rw [known] at made
      cases made
      rw [grammar_new]
      exact Grammar.eq_of_ofProductions built

end Analysis

namespace Workflow

variable {workflow : Workflow}

/-! ### What the steps do -/

theorem parseProductions_cases (workflow : Workflow) :
    (∃ cause, workflow.parseProductions = (.error cause, workflow)) ∨
      ∃ grammar, workflow.parseProductions = (.ok grammar, workflow.read grammar) := by
  unfold parseProductions
  split
  · exact .inl ⟨_, rfl⟩
  · exact .inr ⟨_, rfl⟩

theorem parseProductions_of_error {cause : WorkflowError}
    (refused : workflow.parseProductions.1 = .error cause) :
    workflow.parseProductions.2 = workflow := by
  rcases workflow.parseProductions_cases with ⟨_, same⟩ | ⟨grammar, done⟩
  · rw [same]
  · rw [done] at refused
    cases refused

theorem buildTable_cases (workflow : Workflow) (grammar : Grammar) (name : String) :
    (∃ cause, workflow.buildTable grammar name = (.error cause, workflow)) ∨
      (∃ cause changed, changed.productions = grammar.productions ∧
        workflow.buildTable grammar name =
          (.error cause, { workflow with grammar := some changed })) ∨
      ∃ changed analysis, changed.productions = grammar.productions ∧
        Analysis.ofProductions grammar.productions name workflow.options.strategy =
          .ok analysis ∧
        workflow.buildTable grammar name =
          (.ok analysis, workflow.built changed name analysis) := by
  unfold buildTable
  split
  · exact .inl ⟨_, rfl⟩
  · rename_i changed started
    have kept := Grammar.productions_withStart started
    split
    · exact .inr (.inl ⟨_, changed, kept, rfl⟩)
    · rename_i strategy known
      refine .inr (.inr ⟨changed, _, kept, ?_, rfl⟩)
      rw [Analysis.ofProductions, Grammar.ofProductions_of_withStart started, known]
      rfl

/-- A refused choice may leave another start symbol in the grammar, but not other productions. -/
theorem setStart_cases (workflow : Workflow) (start : Json) :
    (∃ cause, workflow.setStart start = (.error cause, workflow)) ∨
      (∃ cause grammar changed, workflow.grammar = some grammar ∧
        changed.productions = grammar.productions ∧
        workflow.setStart start = (.error cause, { workflow with grammar := some changed })) ∨
      ∃ grammar changed name analysis, workflow.grammar = some grammar ∧
        changed.productions = grammar.productions ∧ start = .string name ∧
        Analysis.ofProductions grammar.productions name workflow.options.strategy =
          .ok analysis ∧
        workflow.setStart start = (.ok analysis, workflow.built changed name analysis) := by
  unfold setStart
  split
  · exact .inl ⟨_, rfl⟩
  · split
    · exact .inl ⟨_, rfl⟩
    · rename_i grammar name present
      split
      · rcases workflow.buildTable_cases grammar name with
          ⟨cause, refused⟩ | ⟨cause, changed, kept, refused⟩ | ⟨changed, analysis, kept, made, done⟩
        · exact .inl ⟨cause, refused⟩
        · exact .inr (.inl ⟨cause, grammar, changed, present, kept, refused⟩)
        · exact .inr (.inr ⟨grammar, changed, name, analysis, present, kept, rfl, made, done⟩)
      · exact .inl ⟨_, rfl⟩
    · exact .inl ⟨_, rfl⟩

/-! ### Histories -/

/-- A step, a question, or another value for what a user may change at any time. -/
inductive Call where
  | parseProductions
  | setStart (start : Json)
  | parseInput (input : String)
  | state
  | assignText (text : String)
  | assignOptions (options : GrammarOptions)

def step (workflow : Workflow) : Call → Workflow
  | .parseProductions => workflow.parseProductions.2
  | .setStart start => (workflow.setStart start).2
  | .parseInput _ | .state => workflow
  | .assignText text => { workflow with text }
  | .assignOptions options => { workflow with options }

/-- What a call answers, if a parse ends within a number of steps and a table can be shown. -/
def answer? (limit : Nat) (workflow : Workflow) : Call → Option (Except Error Json)
  | .parseProductions => some (.ok (productionsAnswer workflow.parseProductions.1))
  | .setStart start => some (startAnswer (workflow.setStart start).1)
  | .parseInput input =>
    (workflow.parseInput? limit input).map fun answer => .ok (inputAnswer input answer)
  | .state => some (.ok workflow.stateAnswer)
  | .assignText _ | .assignOptions _ => some (.ok .null)

/-- The answers to calls that are made one after another. -/
def answers (limit : Nat) (workflow : Workflow) : List Call → List (Option (Except Error Json))
  | [] => []
  | call :: later => workflow.answer? limit call :: (workflow.step call).answers limit later

/-- A call is refused with an error. A rejected input is no error. -/
def Refuses (limit : Nat) (workflow : Workflow) : Call → Prop
  | .parseProductions => ∃ cause, workflow.parseProductions.1 = .error cause
  | .setStart start => ∃ cause, (workflow.setStart start).1 = .error cause
  | .parseInput input => ∃ cause, workflow.parseInput? limit input = some (.error cause)
  | .state | .assignText _ | .assignOptions _ => False

/-- A start symbol that was accepted, and the strategy that was in force then. -/
structure Choice where
  start : Json
  strategy : String

/-- A workflow with a record of what it accepted: the productions that were read last, and the
start symbol that was chosen last, if it was chosen after they were read. -/
structure Recorded where
  workflow : Workflow
  read : Option (List Production) := none
  choice : Option Choice := none

namespace Recorded

def step (recorded : Recorded) (call : Call) : Recorded :=
  let workflow := recorded.workflow
  let next := { recorded with workflow := workflow.step call }
  match call with
  | .parseProductions =>
    match workflow.parseProductions.1 with
    | .ok grammar => { next with read := some grammar.productions, choice := none }
    | .error _ => next
  | .setStart start =>
    match (workflow.setStart start).1 with
    | .ok _ => { next with choice := some ⟨start, workflow.options.strategy⟩ }
    | .error _ => next
  | _ => next

/-- The record of a workflow on which calls are made one after another. -/
def after (text : String) (options : GrammarOptions) (calls : List Call) : Recorded :=
  calls.foldl step { workflow := .new text options }

variable {recorded : Recorded}

/-- The record explains where the workflow stands. The grammar is not the one that was read: a refused
choice may have changed its start symbol, so only its productions are known. -/
structure Explains (recorded : Recorded) : Prop where
  grammar : recorded.workflow.grammar.map Grammar.productions = recorded.read
  stage : recorded.workflow.stage = .tableBuilt ↔ recorded.choice.isSome
  table : ∀ choice, recorded.choice = some choice → ∃ productions name analysis,
    recorded.read = some productions ∧ choice.start = .string name ∧
      recorded.workflow.start = some name ∧ recorded.workflow.analysis = some analysis ∧
      Analysis.ofProductions productions name choice.strategy = .ok analysis

theorem Explains.parseProductions (explains : recorded.Explains) :
    (recorded.step .parseProductions).Explains := by
  rcases recorded.workflow.parseProductions_cases with ⟨cause, refused⟩ | ⟨grammar, done⟩
  · simp only [step, Workflow.step, refused]
    exact ⟨explains.grammar, explains.stage, explains.table⟩
  · simp only [step, Workflow.step, done]
    exact ⟨rfl, by simp [Workflow.read], by simp⟩

theorem Explains.setStart (explains : recorded.Explains) (start : Json) :
    (recorded.step (.setStart start)).Explains := by
  rcases recorded.workflow.setStart_cases start with
    ⟨cause, refused⟩ | ⟨cause, grammar, changed, present, kept, refused⟩ |
      ⟨grammar, changed, name, analysis, present, kept, named, made, done⟩
  · simp only [step, Workflow.step, refused]
    exact ⟨explains.grammar, explains.stage, explains.table⟩
  · simp only [step, Workflow.step, refused]
    have before := explains.grammar
    rw [present] at before
    exact ⟨by simpa [kept] using before, explains.stage, explains.table⟩
  · simp only [step, Workflow.step, done]
    have before : some grammar.productions = recorded.read := by
      simpa [present] using explains.grammar
    refine ⟨by simpa [built, kept] using before, by simp [built], ?_⟩
    rintro _ ⟨⟩
    exact ⟨grammar.productions, name, analysis, before.symm, named, rfl, rfl, made⟩

theorem Explains.step (explains : recorded.Explains) (call : Call) :
    (recorded.step call).Explains := by
  cases call with
  | parseProductions => exact explains.parseProductions
  | setStart start => exact explains.setStart start
  | parseInput input => exact explains
  | state => exact explains
  | assignText text => exact ⟨explains.grammar, explains.stage, explains.table⟩
  | assignOptions options => exact ⟨explains.grammar, explains.stage, explains.table⟩

theorem explains_after (text : String) (options : GrammarOptions) (calls : List Call) :
    (after text options calls).Explains := by
  refine List.foldlRecOn (motive := Explains) _ _ ⟨rfl, by simp [Workflow.new], by simp⟩ ?_
  exact fun _ explains call _ => explains.step call

end Recorded

/-! ### Refused calls -/

/-- Workflows that differ at most in the start symbol of the grammar. -/
def Alike (left right : Workflow) : Prop :=
  ∃ grammar, right = { left with grammar } ∧
    grammar.map Grammar.productions = left.grammar.map Grammar.productions

variable {left right : Workflow}

theorem Alike.refl (workflow : Workflow) : workflow.Alike workflow :=
  ⟨workflow.grammar, rfl, rfl⟩

theorem alike_of_refuses {limit : Nat} {call : Call} (refuses : workflow.Refuses limit call) :
    workflow.Alike (workflow.step call) := by
  cases call with
  | parseProductions =>
    obtain ⟨cause, refused⟩ := refuses
    rw [step, parseProductions_of_error refused]
    exact .refl workflow
  | setStart start =>
    obtain ⟨cause, refused⟩ := refuses
    rcases workflow.setStart_cases start with
      ⟨_, same⟩ | ⟨_, grammar, changed, present, kept, same⟩ | ⟨_, _, _, _, _, _, _, _, done⟩
    · simp only [step, same]
      exact .refl workflow
    · simp only [step, same]
      exact ⟨some changed, rfl, by simp [present, kept]⟩
    · rw [done] at refused
      cases refused
  | parseInput input => exact .refl workflow
  | state => exact .refl workflow
  | assignText text => exact refuses.elim
  | assignOptions options => exact refuses.elim

theorem Alike.parseProductions (alike : left.Alike right) :
    left.parseProductions.1 = right.parseProductions.1 ∧
      left.parseProductions.2.Alike right.parseProductions.2 := by
  obtain ⟨other, rfl, same⟩ := alike
  unfold Workflow.parseProductions
  dsimp only
  split
  · exact ⟨rfl, other, rfl, same⟩
  · exact ⟨rfl, .refl _⟩

theorem buildTable_alike {grammar other : Grammar} (same : other.productions = grammar.productions)
    (present : workflow.grammar = some grammar) (name : String) :
    let right := { workflow with grammar := some other }
    (workflow.buildTable grammar name).1 = (right.buildTable other name).1 ∧
      (workflow.buildTable grammar name).2.Alike (right.buildTable other name).2 := by
  unfold buildTable
  rw [Grammar.withStart_congr same]
  dsimp only
  split
  · exact ⟨rfl, some other, rfl, by simp [present, same]⟩
  · split <;> exact ⟨rfl, .refl _⟩

theorem Alike.setStart (alike : left.Alike right) (start : Json) :
    (left.setStart start).1 = (right.setStart start).1 ∧
      (left.setStart start).2.Alike (right.setStart start).2 := by
  have kept := alike
  obtain ⟨other, rfl, same⟩ := alike
  unfold Workflow.setStart
  dsimp only
  split
  · exact ⟨rfl, kept⟩
  · cases present : left.grammar with
    | none =>
      obtain rfl : other = none := by simpa [present] using same
      exact ⟨rfl, kept⟩
    | some grammar =>
      obtain ⟨other, rfl, productions⟩ : ∃ changed, other = some changed ∧
          changed.productions = grammar.productions := by simpa [present] using same
      -- the choices are the same on both sides, and a grammar forgets its start when it gets another
      cases start with
      | string name =>
        dsimp only
        split
        · exact buildTable_alike productions present name
        · exact ⟨rfl, kept⟩
      | _ => exact ⟨rfl, kept⟩

theorem Alike.step (alike : left.Alike right) (limit : Nat) (call : Call) :
    left.answer? limit call = right.answer? limit call ∧
      (left.step call).Alike (right.step call) := by
  have kept := alike
  obtain ⟨other, rfl, same⟩ := alike
  cases call with
  | parseProductions =>
    obtain ⟨answer, next⟩ := kept.parseProductions
    exact ⟨congrArg (fun told => some (Except.ok (productionsAnswer told))) answer, next⟩
  | setStart start =>
    obtain ⟨answer, next⟩ := kept.setStart start
    exact ⟨congrArg (some ∘ startAnswer) answer, next⟩
  | parseInput input => exact ⟨rfl, kept⟩
  | state => exact ⟨rfl, kept⟩
  | assignText text => exact ⟨rfl, other, rfl, same⟩
  | assignOptions options => exact ⟨rfl, other, rfl, same⟩

theorem Alike.answers (alike : left.Alike right) (limit : Nat) (calls : List Call) :
    left.answers limit calls = right.answers limit calls := by
  induction calls generalizing left right with
  | nil => rfl
  | cons call later ih =>
    obtain ⟨answer, next⟩ := alike.step limit call
    rw [Workflow.answers, Workflow.answers, answer, ih next]

theorem parseInput?_of_built {analysis : Analysis} (stage : workflow.stage = .tableBuilt)
    (present : workflow.analysis = some analysis) (limit : Nat) (input : String) :
    workflow.parseInput? limit input =
      (analysis.table.parseText? limit input).map (Except.mapError .unreadableInput) := by
  unfold parseInput?
  rw [stage, present]
  dsimp only
  refine congrArg (Option.map · _) (funext fun answer => ?_)
  cases answer <;> rfl

/-- Wherever calls have led a workflow, its record says what it stands for. A table is there if and
only if a start symbol was accepted after the last successful reading; then the analysis is the one
that is made of the productions that were read, this start symbol and the strategy that was in
force, and inputs are parsed with it. Every accepted start symbol is answered with such an analysis,
and a refused call changes no later answer. -/
theorem answers_by_record (text : String) (options : GrammarOptions) (calls : List Call) :
    let record := Recorded.after text options calls
    let workflow := record.workflow
    (workflow.stage = .tableBuilt ↔ record.choice.isSome) ∧
      (workflow.stage = .tableBuilt → ∃ productions name strategy analysis,
        record.read = some productions ∧ record.choice = some ⟨.string name, strategy⟩ ∧
          workflow.start = some name ∧ workflow.analysis = some analysis ∧
          analysis.grammar.productions = productions ∧
          analysis.grammar.start = .nonterminal name ∧
          Analysis.ofProductions productions name strategy = .ok analysis ∧
          ∀ limit input, workflow.parseInput? limit input =
            (analysis.table.parseText? limit input).map (Except.mapError .unreadableInput)) ∧
      (∀ start analysis, (workflow.setStart start).1 = .ok analysis →
        ∃ productions name, record.read = some productions ∧ start = .string name ∧
          Analysis.ofProductions productions name workflow.options.strategy = .ok analysis) ∧
      ∀ limit call, workflow.Refuses limit call → ∀ bound later,
        (workflow.step call).answers bound later = workflow.answers bound later := by
  intro record workflow
  have explains : record.Explains := Recorded.explains_after text options calls
  refine ⟨explains.stage, ?_, ?_, ?_⟩
  · intro stage
    obtain ⟨⟨start, strategy⟩, chosen⟩ := Option.isSome_iff_exists.mp (explains.stage.mp stage)
    obtain ⟨productions, name, analysis, read, rfl, started, present, made⟩ :=
      explains.table _ chosen
    obtain ⟨same, named⟩ := Analysis.grammar_of_ofProductions made
    exact ⟨productions, name, strategy, analysis, read, chosen, started, present, same, named, made,
      parseInput?_of_built stage present⟩
  · intro start analysis accepted
    rcases workflow.setStart_cases start with
      ⟨_, refused⟩ | ⟨_, _, _, _, _, refused⟩ |
        ⟨grammar, _, name, _, present, _, named, made, done⟩
    · rw [refused] at accepted
      cases accepted
    · rw [refused] at accepted
      cases accepted
    · rw [done] at accepted
      cases accepted
      have read : record.read = some grammar.productions := by
        rw [← explains.grammar]
        exact congrArg (Option.map Grammar.productions) present
      exact ⟨grammar.productions, name, read, named, made⟩
  · intro limit call refuses bound later
    exact ((alike_of_refuses refuses).answers bound later).symm

theorem answers_by_record_reread :
    let record := Recorded.after "S -> a" {}
      [.parseProductions, .setStart (.string "S"), .parseProductions, .setStart (.string "a"),
        .setStart (.string "S")]
    record.workflow.stage = .tableBuilt ∧ ∃ productions name strategy analysis,
      record.read = some productions ∧ record.choice = some ⟨.string name, strategy⟩ ∧
        Analysis.ofProductions productions name strategy = .ok analysis := by
  intro record
  have built : record.workflow.stage = .tableBuilt := by decide +kernel
  obtain ⟨_, analysed, _⟩ := answers_by_record "S -> a" {}
    [.parseProductions, .setStart (.string "S"), .parseProductions, .setStart (.string "a"),
      .setStart (.string "S")]
  obtain ⟨productions, name, strategy, analysis, read, chosen, _, _, _, _, made, _⟩ :=
    analysed built
  exact ⟨built, productions, name, strategy, analysis, read, chosen, made⟩

end Workflow

end Predictive
