import Predictive.Proofs.Histories

/-! What a refused call leaves behind. Nothing changes but the start symbol of the grammar: a start
symbol that is on offer is put into the grammar before the strategy is looked up, and stays there if
there is no such strategy. -/

set_option autoImplicit false

namespace Predictive

theorem Strategy.unlisted_of_ofName {name : String} {cause : Error}
    (failed : Strategy.ofName name = .error cause) : name ∉ strategyNames := by
  unfold Strategy.ofName at failed
  split at failed
  · cases failed
  · next first =>
    split at failed
    · cases failed
    · next second => simp [strategyNames, first, second]

theorem Grammar.nonTerminals_congr {left right : Grammar}
    (same : left.productions = right.productions) : left.nonTerminals = right.nonTerminals := by
  rw [nonTerminals, nonTerminals, same]

namespace Workflow

variable {workflow : Workflow} {name : String}

/-! ### Start symbols on offer -/

/-- A start symbol that the grammar at hand can take. -/
structure Takes (workflow : Workflow) (name : String) : Prop where
  stage : workflow.stage ≠ .initial
  free : Symbol.isReservedName name = false
  known : ∃ grammar, workflow.grammar = some grammar ∧ .nonterminal name ∈ grammar.nonTerminals

/-- Every start symbol on offer can be taken. -/
def Offers (workflow : Workflow) : Prop :=
  ∀ name ∈ workflow.startChoices, workflow.Takes name

theorem Offers.parseProductions (offers : workflow.Offers) :
    (workflow.step .parseProductions).Offers := by
  simp only [step, Workflow.parseProductions]
  split
  · exact offers
  · next grammar built =>
    intro name listed
    obtain ⟨first, starts⟩ := Grammar.starts_ofText built
    have known := Grammar.mem_names_nonTerminals.mp listed
    exact ⟨by simp [read], starts.free name known, grammar, rfl, known⟩

theorem Offers.setStart (offers : workflow.Offers) (start : Json) :
    (workflow.step (.setStart start)).Offers := by
  have kept {grammar changed : Grammar} (present : workflow.grammar = some grammar)
      (same : changed.productions = grammar.productions) (name : String)
      (takes : workflow.Takes name) : .nonterminal name ∈ changed.nonTerminals := by
    obtain ⟨_, again, known⟩ := takes.known
    obtain rfl := Option.some.inj (present.symm.trans again)
    rwa [Grammar.nonTerminals_congr same]
  rcases workflow.setStart_cases start with
    ⟨cause, refused⟩ | ⟨cause, grammar, changed, present, same, refused⟩ |
      ⟨grammar, changed, _, analysis, present, same, _, _, done⟩
  · simpa only [step, refused] using offers
  · simp only [step, refused]
    intro name listed
    have takes := offers name listed
    exact ⟨takes.stage, takes.free, changed, rfl, kept present same name takes⟩
  · simp only [step, done]
    intro name listed
    have takes := offers name listed
    exact ⟨by simp [built], takes.free, changed, rfl, kept present same name takes⟩

theorem Offers.step (offers : workflow.Offers) (call : Call) : (workflow.step call).Offers := by
  cases call with
  | parseProductions => exact offers.parseProductions
  | setStart start => exact offers.setStart start
  | parseInput input => exact offers
  | state => exact offers
  | assignText text => exact fun name listed => { offers name listed with }
  | assignOptions options => exact fun name listed => { offers name listed with }

/-- Where calls have led a workflow that was new. -/
def after (text : String) (options : GrammarOptions) (calls : List Call) : Workflow :=
  calls.foldl step (.new text options)

theorem offers_after (text : String) (options : GrammarOptions) (calls : List Call) :
    (after text options calls).Offers := by
  refine List.foldlRecOn (motive := Offers) _ _ ?_ fun _ offers call _ => offers.step call
  intro name listed
  cases listed

/-! ### Refusals -/

/-- A start symbol on offer is refused for the strategy only, and the grammar has it by then. -/
theorem setStart_of_offers (offers : workflow.Offers) (listed : name ∈ workflow.startChoices) :
    ∃ grammar known, workflow.grammar = some grammar ∧
      ((∃ analysis, (workflow.setStart (.string name)).1 = .ok analysis) ∨
        workflow.options.strategy ∉ strategyNames ∧
          (workflow.setStart (.string name)).2 =
            { workflow with grammar := some (grammar.startingAt (.nonterminal name) known) }) := by
  have takes := offers name listed
  obtain ⟨grammar, present, known⟩ := takes.known
  refine ⟨grammar, known, present, ?_⟩
  unfold setStart
  rw [if_neg takes.stage]
  simp only [present, List.contains_iff_mem.mpr listed, if_true]
  unfold buildTable
  rw [Grammar.withStart_eq_ok known takes.free]
  dsimp only
  split
  · next failed => exact .inr ⟨Strategy.unlisted_of_ofName failed, rfl⟩
  · exact .inl ⟨_, rfl⟩

/-- Any other start symbol is refused at once. -/
theorem setStart_of_not_offered {start : Json}
    (strange : ∀ name ∈ workflow.startChoices, start ≠ .string name) :
    (workflow.setStart start).2 = workflow := by
  unfold setStart
  split
  · rfl
  · split
    · rfl
    · next grammar name present =>
      have absent : ¬ workflow.startChoices.contains name = true := fun listed =>
        strange name (List.contains_iff_mem.mp listed) rfl
      rw [if_neg absent]
    · rfl

theorem step_eq_self_of_refuses {limit : Nat} {call : Call} (refuses : workflow.Refuses limit call)
    (strange : ∀ name ∈ workflow.startChoices, call ≠ .setStart (.string name)) :
    workflow.step call = workflow := by
  cases call with
  | parseProductions =>
    obtain ⟨cause, refused⟩ := refuses
    exact parseProductions_of_error refused
  | setStart start =>
    exact setStart_of_not_offered fun name listed same => strange name listed (by rw [same])
  | parseInput input => rfl
  | state => rfl
  | assignText text => exact refuses.elim
  | assignOptions options => exact refuses.elim

/-- A refused call changes nothing but the start symbol of the grammar, and it changes that if and
only if it is the choice of another start symbol on offer. Such a choice is refused for the strategy,
and the grammar has the other start symbol afterwards. -/
theorem step_of_refuses (text : String) (options : GrammarOptions) (calls : List Call)
    (limit : Nat) (call : Call) (refuses : (after text options calls).Refuses limit call) :
    let workflow := after text options calls
    let next := workflow.step call
    next = { workflow with grammar := next.grammar } ∧
      next.grammar.map Grammar.productions = workflow.grammar.map Grammar.productions ∧
      (next = workflow ↔ ∀ name ∈ workflow.startChoices, call = .setStart (.string name) →
        workflow.grammar.map Grammar.start = some (.nonterminal name)) ∧
      ∀ name ∈ workflow.startChoices, call = .setStart (.string name) →
        workflow.options.strategy ∉ strategyNames ∧
          next.grammar.map Grammar.start = some (.nonterminal name) := by
  intro workflow next
  by_cases offered : ∃ name ∈ workflow.startChoices, call = .setStart (.string name)
  · obtain ⟨name, listed, rfl⟩ := offered
    obtain ⟨cause, refused⟩ := refuses
    obtain ⟨grammar, known, present, ⟨analysis, accepted⟩ | ⟨unlisted, left⟩⟩ :=
      setStart_of_offers (offers_after text options calls) listed
    · rw [accepted] at refused
      cases refused
    · have left : next =
          { workflow with grammar := some (grammar.startingAt (.nonterminal name) known) } := left
      have present : workflow.grammar = some grammar := present
      have started : next.grammar.map Grammar.start = some (.nonterminal name) := by
        rw [left]
        rfl
      refine ⟨by rw [left], by rw [left, present]; rfl, ⟨?_, fun same => ?_⟩, ?_⟩
      · rintro kept _ _ ⟨⟩
        rw [← kept, started]
      · have begun : grammar.start = .nonterminal name := by
          simpa [present] using same name listed rfl
        have kept : grammar.startingAt (.nonterminal name) known = grammar :=
          Grammar.ext rfl begun.symm
        rw [left, kept, ← present]
      · rintro _ _ ⟨⟩
        exact ⟨unlisted, started⟩
  · push Not at offered
    have same : next = workflow := step_eq_self_of_refuses refuses offered
    rw [same]
    exact ⟨rfl, rfl, iff_of_true rfl fun name listed chosen => absurd chosen (offered name listed),
      fun name listed chosen => absurd chosen (offered name listed)⟩

/-- The productions of two non-terminals, read and then left with a strategy that there is not. -/
def misconfigured : List Call :=
  [.parseProductions, .assignOptions { strategy := "guess" }]

theorem refuses_misconfigured :
    (after "S -> A\nA -> a" {} misconfigured).Refuses 0 (.setStart (.string "A")) := by
  have failed : ((after "S -> A\nA -> a" {} misconfigured).setStart (.string "A")).1.toBool =
      false := by decide +kernel
  cases answer : ((after "S -> A\nA -> a" {} misconfigured).setStart (.string "A")).1 with
  | error cause => exact ⟨cause, answer⟩
  | ok analysis =>
    rw [answer] at failed
    cases failed

/-- The choice of the second non-terminal is refused, and the grammar begins with it. -/
theorem step_of_refuses_misconfigured :
    let workflow := after "S -> A\nA -> a" {} misconfigured
    workflow.Refuses 0 (.setStart (.string "A")) ∧
      workflow.grammar.map Grammar.start = some (.nonterminal "S") ∧
      (workflow.step (.setStart (.string "A"))).grammar.map Grammar.start =
        some (.nonterminal "A") := by
  intro workflow
  have listed : "A" ∈ workflow.startChoices := by decide +kernel
  have left := (step_of_refuses "S -> A\nA -> a" {} misconfigured 0 _
    refuses_misconfigured).2.2.2 "A" listed rfl
  exact ⟨refuses_misconfigured, by decide +kernel, left.2⟩

/-- A refused choice of a start symbol does not leave the grammar as it was. -/
theorem refused_start_is_kept :
    ¬ ∀ (text : String) (options : GrammarOptions) (calls : List Call) (limit : Nat) (call : Call),
        (after text options calls).Refuses limit call →
        let workflow := after text options calls
        let next := workflow.step call
        next.grammar = workflow.grammar ∧ next.start = workflow.start ∧
          next.analysis = workflow.analysis ∧ next.stage = workflow.stage ∧
          next.startChoices = workflow.startChoices ∧ next.productions = workflow.productions := by
  intro claimed
  have kept := (claimed "S -> A\nA -> a" {} misconfigured 0 _ refuses_misconfigured).1
  have starts := congrArg (Option.map Grammar.start) kept
  exact absurd starts (by decide +kernel)

end Workflow

end Predictive
