import Predictive.Parsing.Configuration
import Predictive.Parsing.Token

/-! Runs of the predictive automaton. A run ends when the input is accepted, when the stack is
empty, or when a non-terminal would be expanded again without need; as there are tables on which
it never ends, the number of steps is limited. -/

set_option autoImplicit false

namespace Predictive

/-- A configuration with the steps and the errors before it, both latest first. -/
structure Run where
  configuration : Configuration
  trace : List ParseStep := []
  issues : List ParseIssue := []
  deriving DecidableEq, Repr

namespace Run

def nextNumber (run : Run) : Int :=
  match run.trace with
  | [] => 1
  | step :: _ => step.number + 1

def record (run : Run) (action : Action) : Run :=
  let configuration := run.configuration
  { run with
    trace :=
      ⟨run.nextNumber, configuration.consumed, configuration.stack, configuration.remaining,
        action⟩ :: run.trace }

def moveTo (run : Run) (configuration : Configuration) : Run :=
  { run with configuration }

/-- The run with an error noted and the top of the stack skipped. -/
def skip (run : Run) (table : ParseTable) (top : Symbol) : Run :=
  let configuration := run.configuration
  let expected := table.alternatives top
  let issue : ParseIssue :=
    ⟨run.nextNumber, configuration.position, top, configuration.lookahead, expected,
      mismatchMessage top configuration.lookahead expected⟩
  { run.record ⟨.errorSkip, none⟩ with
    configuration := configuration.pop
    issues := issue :: run.issues }

section
variable (run : Run) (configuration : Configuration) (action : Action)

@[simp] theorem configuration_record : (run.record action).configuration = run.configuration := rfl

@[simp] theorem issues_record : (run.record action).issues = run.issues := rfl

@[simp] theorem configuration_moveTo : (run.moveTo configuration).configuration = configuration := rfl

@[simp] theorem trace_moveTo : (run.moveTo configuration).trace = run.trace := rfl

@[simp] theorem issues_moveTo : (run.moveTo configuration).issues = run.issues := rfl

@[simp] theorem configuration_skip (table : ParseTable) (top : Symbol) :
    (run.skip table top).configuration = run.configuration.pop := rfl

@[simp] theorem trace_skip (table : ParseTable) (top : Symbol) :
    (run.skip table top).trace = (run.record ⟨.errorSkip, none⟩).trace := rfl

end

def finish (run : Run) (verdict : Verdict) : ParseResult :=
  ⟨verdict, run.trace.reverse, run.issues.reverse⟩

/-- An accepted input was recovered if there were errors. -/
def accepted (run : Run) : ParseResult :=
  (run.record ⟨.accept, none⟩).finish
    (if run.issues.isEmpty then .accept else .rejectWithRecovery)

/-- The run after one step, or its result. Only a guarded run ends where a non-terminal would be
expanded again without need. -/
def step (guarded : Bool) (table : ParseTable) (run : Run) : Except Error (Run ⊕ ParseResult) :=
  let configuration := run.configuration
  match configuration.stack with
  | [] => .ok (.inr (run.finish .reject))
  | top :: below =>
    (Move.choose table top below configuration.lookahead).map fun
      | .accept => .inr run.accepted
      | .dropEpsilon => .inl ((run.record ⟨.epsilon, none⟩).moveTo configuration.pop)
      | .expand production =>
        if guarded && configuration.isOpen top then
          .inr ((run.record ⟨.stall, some production⟩).finish .reject)
        else
          .inl ((run.record ⟨.expand, some production⟩).moveTo
            (configuration.expand top production))
      | .consume => .inl ((run.record ⟨.matched, none⟩).moveTo configuration.consume)
      | .skip => .inl (run.skip table top)

/-- The result of a run, if it ends within a number of steps. -/
def result? (guarded : Bool) (table : ParseTable) :
    (limit : Nat) → Run → Option (Except Error ParseResult)
  | 0, _ => none
  | limit + 1, run =>
    match run.step guarded table with
    | .error cause => some (.error cause)
    | .ok (.inr result) => some (.ok result)
    | .ok (.inl next) => next.result? guarded table limit

theorem result?_of_step {guarded : Bool} {table : ParseTable} {run next : Run}
    (stepped : run.step guarded table = .ok (.inl next)) (limit : Nat) :
    run.result? guarded table (limit + 1) = next.result? guarded table limit := by
  simp only [result?, stepped]

/-- A result does not change when more steps are allowed. -/
theorem result?_mono {guarded : Bool} {table : ParseTable} {limit : Nat} {run : Run}
    {result : Except Error ParseResult} (ended : run.result? guarded table limit = some result)
    (more : Nat) : run.result? guarded table (limit + more) = some result := by
  induction limit generalizing run with
  | zero => simp [result?] at ended
  | succ limit ih =>
    rw [Nat.succ_add]
    unfold result? at ended ⊢
    split
    · next stepped => simpa only [stepped] using ended
    · next stepped => simpa only [stepped] using ended
    · next stepped =>
      simp only [stepped] at ended
      exact ih ended

end Run

/-- The terminal that an input name stands for; the reserved names stand for none. -/
def inputSymbol (name : String) : Except Error Symbol :=
  if Symbol.isReservedName name then .error (.reservedInput name) else .ok (.terminal name)

namespace ParseTable

/-- The parse of a sequence of symbols, if it ends within a number of steps. -/
def parseSymbols? (table : ParseTable) (limit : Nat) (symbols : List Symbol) :
    Option (Except Error ParseResult) :=
  Run.result? true table limit ⟨.initial table.grammar.start symbols, [], []⟩

def parseNames? (table : ParseTable) (limit : Nat) (names : List String) :
    Option (Except Error ParseResult) :=
  match names.mapM inputSymbol with
  | .error cause => some (.error cause)
  | .ok symbols => table.parseSymbols? limit symbols

def tokenize? (table : ParseTable) (text : String) : Option (List Token) :=
  Token.tokenize? table.grammar.terminals text

/-- The parse of a text, if its tokens come to an end, and the parse within a number of steps. -/
def parseText? (table : ParseTable) (limit : Nat) (text : String) :
    Option (Except Error ParseResult) := do
  let tokens ← table.tokenize? text
  table.parseNames? limit (tokens.map Token.type)

end ParseTable

end Predictive
