import Predictive.Proofs.CallRoom
import Predictive.Proofs.Histories
import Predictive.Proofs.Chronicle
import Predictive.Proofs.StrategyNames
import Predictive.Service.Framework

/-! What the endpoints answer. A request is answered from the fields of its body, and only the parse
of an input takes time; each endpoint is opened here once. All that an endpoint answers about an
analysis can be shown, so the room for its calls is all that it can lack. -/

set_option autoImplicit false

namespace Predictive

namespace Analysis

theorem exists_of_ofText {options : GrammarOptions} {text : String} {start : Option String}
    {analysis : Analysis} (made : ofText options text start = .ok analysis) :
    ∃ grammar strategy, Grammar.ofText options text start = .ok grammar ∧
      Strategy.ofName options.strategy = .ok strategy ∧ analysis = new grammar strategy := by
  unfold ofText at made
  split at made
  · cases made
  · rename_i grammar loaded
    cases known : Strategy.ofName options.strategy with
    | error cause =>
      rw [known] at made
      cases made
    | ok strategy =>
      rw [known] at made
      cases made
      exact ⟨grammar, strategy, loaded, rfl, rfl⟩

theorem ofText_eq_ok {options : GrammarOptions} {text : String} {start : Option String}
    {grammar : Grammar} {strategy : Strategy}
    (loaded : Grammar.ofText options text start = .ok grammar)
    (known : Strategy.ofName options.strategy = .ok strategy) :
    ofText options text start = .ok (new grammar strategy) := by
  unfold ofText
  rw [loaded, known]
  rfl

/-- The empty text is that of no grammar. -/
theorem ofText_empty (options : GrammarOptions) (start : Option String) :
    ofText options "" start = .error (.grammar (.unreadableLine "")) := by
  have blank : Source.clean "".toList = [] := by decide +kernel
  have read : Source.rules options "" = .error (.unreadableLine "") := by
    unfold Source.rules
    rw [blank]
    rfl
  unfold ofText Grammar.ofText
  rw [read]

theorem strategy_new (grammar : Grammar) (strategy : Strategy) :
    (new grammar strategy).session.strategy = strategy := by
  have first := (Session.coherent_new grammar strategy).withFirst.1
  have second := first.trans first.coherent.withFollow.1
  exact (second.trans second.coherent.table).strategy

/-- The room that an analysis takes is that for the sets of its grammar. -/
theorem fits_new (room : CallRoom) (grammar : Grammar) (strategy : Strategy) :
    (new grammar strategy).fits room = grammar.fits room strategy := by
  rw [fits, strategy_new, grammar_new]

theorem exists_tableHtml (grammar : Grammar) (strategy : Strategy) :
    ∃ html, (new grammar strategy).tableHtml = .ok html := by
  have named : (new grammar strategy).table.Named := by
    rw [table_new]
    exact Grammar.parseTable_named
  obtain ⟨page, shown⟩ : ∃ page, (new grammar strategy).table.html {} = .ok page :=
    ParseTable.exists_html (.inr named)
  exact ⟨page.render, by rw [tableHtml, shown]; rfl⟩

end Analysis

namespace Workflow

variable {workflow : Workflow} {loaded started : Grammar}

theorem parseProductions_of_ofText
    (read : Grammar.ofText workflow.options workflow.text none = .ok loaded) :
    workflow.parseProductions = (.ok loaded, workflow.read loaded) := by
  unfold parseProductions
  rw [read]

theorem setStart_read (workflow : Workflow) (loaded : Grammar) (name : String) :
    (workflow.read loaded).setStart (.string name) =
      if name ∈ loaded.nonTerminals.map Symbol.name then
        (workflow.read loaded).buildTable loaded name
      else
        (.error (.invalidStart name (loaded.nonTerminals.map Symbol.name)),
          workflow.read loaded) := by
  simp only [setStart, read, ← List.contains_iff_mem]
  rfl

theorem buildTable_of_withStart {name : String} {strategy : Strategy}
    (begun : loaded.withStart (.named name) = .ok started)
    (known : Strategy.ofName workflow.options.strategy = .ok strategy) :
    (workflow.buildTable loaded name).1 = .ok (Analysis.new started strategy) := by
  unfold buildTable
  rw [begun]
  dsimp only
  rw [known]

end Workflow

namespace ParseTable

variable {table : ParseTable} {names : List String}

/-- An answer does not change when more steps are allowed. -/
theorem parseNames?_mono {limit more : Nat} {answer : Except Error ParseResult}
    (ended : table.parseNames? limit names = some answer) (longer : limit ≤ more) :
    table.parseNames? more names = some answer := by
  obtain ⟨extra, rfl⟩ := Nat.exists_eq_add_of_le longer
  unfold parseNames? at ended ⊢
  split at ended
  · exact ended
  · exact Run.result?_mono ended extra

/-- Nothing but a reserved name makes a parse fail. -/
theorem parseNames?_cases (named : table.Named) (names : List String) :
    (∃ name ∈ names, Symbol.isReservedName name = true ∧
      ∀ limit, table.parseNames? limit names = some (.error (.reservedInput name))) ∨
    (∀ name ∈ names, Symbol.isReservedName name = false) ∧
      ∀ limit answer, table.parseNames? limit names = some answer →
        ∃ result, answer = .ok result := by
  cases read : names.mapM inputSymbol with
  | error cause =>
    obtain ⟨name, member, reserved, rfl⟩ := reserved_of_mapM_inputSymbol read
    exact .inl ⟨name, member, reserved, fun limit => by simp [parseNames?, read]⟩
  | ok symbols =>
    obtain ⟨free, rfl⟩ := eq_of_mapM_inputSymbol read
    refine .inr ⟨free, fun limit answer ended => ?_⟩
    rw [parseNames?_eq free] at ended
    obtain ⟨last, _, ⟨cause, failed, _⟩ | ⟨result, _, rfl⟩⟩ := Run.exists_last_of_result? ended
    · exact absurd failed (Run.step_ne_error named)
    · exact ⟨result, rfl⟩

end ParseTable

namespace Service

/-! ### Responses -/

namespace Response

/-- The kind of error that a refusal names. -/
def errorType? (response : Response) : Option Json :=
  response.body.get? "error_type"

@[simp] theorem errorType?_failureOf (kind message : String) :
    (failureOf kind message).errorType? = some (.string kind) := rfl

/-- A response with a table, and one that shows a table with a parse, tell the same of the grammar;
conflicts that are not told are none. -/
structure Matches (table picture : Response) : Prop where
  table_html : ∃ html, table.body.get? "parse_table_html" = some (.string html) ∧
    picture.body.get? "parseTableHtml" = some (.string html)
  sets_html : ∃ html, table.body.get? "first_follow_html" = some (.string html) ∧
    picture.body.get? "firstFollowHtml" = some (.string html)
  start : ∃ name, table.body.get? "start_symbol" = some (.string name) ∧
    picture.body.get? "startSymbol" = some (.string name)
  conflicts : ∃ texts, (table.body.get? "conflicts").getD (.strings []) = .strings texts ∧
    picture.body.get? "conflicts" = some (.strings texts)

end Response

/-- Every analysis can be shown with its table, and with every parse. -/
theorem exists_tableResponse (grammar : Grammar) (strategy : Strategy) :
    ∃ table, tableResponse (.new grammar strategy) = .ok table ∧ table.status = 200 ∧
      ∀ result, ∃ picture, visualization (.new grammar strategy) result = .ok picture ∧
        picture.status = 200 ∧ table.Matches picture := by
  obtain ⟨html, shown⟩ := Analysis.exists_tableHtml grammar strategy
  refine ⟨_, by rw [tableResponse, Analysis.tableFields, shown]; rfl, rfl, fun result =>
    ⟨_, by rw [visualization, shown]; rfl, rfl, ⟨html, rfl, rfl⟩, ⟨_, rfl, rfl⟩, ⟨_, rfl, rfl⟩,
      _, ?_, rfl⟩⟩
  by_cases clean : (Analysis.new grammar strategy).isLL1 = true
  · have none : (Analysis.new grammar strategy).conflicts = [] := by
      simpa [Analysis.isLL1, ParseTable.isLL1, Analysis.conflicts] using clean
    rw [if_pos clean, Analysis.conflictTexts, none]
    rfl
  · rw [if_neg clean]
    rfl

/-! ### Fields -/

variable {room : CallRoom} {endpoint : Endpoint} {fields : Fields}

namespace Fields

/-- The start symbol that is asked for. -/
def start? (fields : Fields) : Option String :=
  match fields.value "start_symbol" with
  | .string name => some name
  | _ => none

/-- The fields describe an analysis, if there is room for it. -/
def Analyzes (fields : Fields) (analysis : Analysis) : Prop :=
  ∃ options text, fields.options = .ok options ∧ fields.value "cfg" = .string text ∧
    Analysis.ofText options text fields.start? = .ok analysis

/-- The parse of the input ends, if the fields describe an analysis to parse it with. -/
def DriverEnds (fields : Fields) : Prop :=
  ∀ input analysis, fields.value "input" = .string input → fields.Analyzes analysis →
    ∃ limit answer, analysis.table.parseText? limit input = some answer

/-- There is room for the analysis that the fields describe, if they describe any. -/
def Fits (room : CallRoom) (fields : Fields) : Prop :=
  ∀ analysis, fields.Analyzes analysis → analysis.fits room = true

/-- Options are accepted under a known strategy only. -/
theorem exists_strategy {options : GrammarOptions} (accepted : fields.options = .ok options) :
    ∃ strategy, Strategy.ofName options.strategy = .ok strategy :=
  Strategy.exists_of_mem (by
    obtain ⟨listed, rfl⟩ := GrammarOptions.checked_eq_ok.mp accepted
    exact listed)

theorem start?_of_string {name : String} (start : fields.value "start_symbol" = .string name) :
    fields.start? = some name := by
  unfold start?
  rw [start]

/-- What some options and text of the fields have, the options and the text of the fields have. -/
theorem exists_cfg_iff {options : GrammarOptions} {text : String}
    (accepted : fields.options = .ok options) (cfg : fields.value "cfg" = .string text)
    (holds : GrammarOptions → String → Prop) :
    (∃ options text, fields.options = .ok options ∧ fields.value "cfg" = .string text ∧
      holds options text) ↔ holds options text := by
  constructor
  · rintro ⟨_, _, again, same, found⟩
    cases accepted.symm.trans again
    cases cfg.symm.trans same
    exact found
  · exact fun found => ⟨options, text, accepted, cfg, found⟩

theorem analyzes_iff {options : GrammarOptions} {text : String} {analysis : Analysis}
    (accepted : fields.options = .ok options) (cfg : fields.value "cfg" = .string text) :
    fields.Analyzes analysis ↔ Analysis.ofText options text fields.start? = .ok analysis :=
  exists_cfg_iff accepted cfg fun options text =>
    Analysis.ofText options text fields.start? = .ok analysis

theorem Analyzes.unique {first second : Analysis} (one : fields.Analyzes first)
    (other : fields.Analyzes second) : first = second := by
  obtain ⟨options, text, accepted, cfg, made⟩ := one
  exact Except.ok.inj (made.symm.trans ((analyzes_iff accepted cfg).mp other))

theorem Analyzes.exists_new {analysis : Analysis} (analyzes : fields.Analyzes analysis) :
    ∃ grammar strategy, analysis = .new grammar strategy := by
  obtain ⟨options, text, accepted, cfg, made⟩ := analyzes
  obtain ⟨grammar, strategy, _, _, new⟩ := Analysis.exists_of_ofText made
  exact ⟨grammar, strategy, new⟩

theorem Analyzes.fits_iff {analysis : Analysis} (analyzes : fields.Analyzes analysis) :
    fields.Fits room ↔ analysis.fits room = true := by
  constructor
  · exact fun enough => enough analysis analyzes
  · intro enough other described
    rw [described.unique analyzes, enough]

/-- The strategy of accepted options is the one that is sent, unless that counts as left out. -/
theorem strategy_of_options {options : GrammarOptions} (accepted : fields.options = .ok options) :
    options.strategy = "fixed_point" ∨ fields.value "strategy" = .string options.strategy := by
  obtain ⟨listed, rfl⟩ := GrammarOptions.checked_eq_ok.mp accepted
  dsimp only at listed ⊢
  by_cases sent : (fields.value "strategy").isTruthy = true
  · rw [if_pos sent] at listed ⊢
    obtain ⟨name, _, same⟩ := Json.eq_string_of_text listed
    exact .inr (by rw [same]; rfl)
  · exact .inl (if_neg sent)

/-- Only the descents can lack room. -/
theorem fits_of_strategy (other : fields.value "strategy" ≠ .string "recursive") :
    fields.Fits room := by
  rintro _ ⟨options, text, accepted, _, made⟩
  obtain ⟨grammar, strategy, _, known, rfl⟩ := Analysis.exists_of_ofText made
  rw [Analysis.fits_new]
  cases strategy with
  | fixedPoint => rfl
  | recursive =>
    have name := Strategy.eq_of_ofName known
    rcases strategy_of_options accepted with passes | sent
    · exact absurd (name.symm.trans passes) (by decide)
    · exact absurd (name ▸ sent) other

end Fields

/-! ### Asking an endpoint -/

/-- The response of an endpoint to fields, once a parse has ended. -/
def Endpoint.Answers (room : CallRoom) (endpoint : Endpoint) (fields : Fields)
    (response : Response) : Prop :=
  ∃ bound, ∀ limit, bound ≤ limit → endpoint.respond? room limit fields = some response

theorem Endpoint.answers_of_forall {response : Response}
    (always : ∀ limit, endpoint.respond? room limit fields = some response) :
    endpoint.Answers room fields response :=
  ⟨0, fun limit _ => always limit⟩

/-- The request to an endpoint with a body. -/
def Endpoint.post {Body : Type} (endpoint : Endpoint) (body : Body) : Request Body :=
  ⟨endpoint.path, "POST", body⟩

namespace Framework

/-- A request to an endpoint, with a body that has some fields. -/
structure Asks {Body : Type} (framework : Framework Body) (request : Request Body)
    (endpoint : Endpoint) (fields : Fields) : Prop where
  path : request.path = endpoint.path
  method : request.method = "POST"
  fields : framework.fields? request.body = some fields

variable {Body : Type} {framework : Framework Body} {request : Request Body} {response : Response}

theorem asks_post (endpoint : Endpoint) {body : Body} (read : framework.fields? body = some fields) :
    framework.Asks (endpoint.post body) endpoint fields :=
  ⟨rfl, rfl, read⟩

theorem Asks.responds (asks : framework.Asks request endpoint fields) (lawful : framework.Lawful)
    (answers : endpoint.Answers framework.room fields response) :
    framework.Responds request response := by
  obtain ⟨bound, answered⟩ := answers
  refine ⟨endpoint, lawful.routed request endpoint asks.path asks.method, bound, ?_⟩
  intro limit longer
  rw [respond?, asks.fields]
  exact answered limit longer

theorem Responds.unique {other : Response} (one : framework.Responds request response)
    (another : framework.Responds request other) : response = other := by
  obtain ⟨endpoint, reached, bound, early⟩ := one
  obtain ⟨same, reached_same, limit, late⟩ := another
  obtain rfl : endpoint = same := Option.some.inj (reached.symm.trans reached_same)
  exact Option.some.inj ((early (max bound limit) (Nat.le_max_left ..)).symm.trans
    (late (max bound limit) (Nat.le_max_right ..)))

end Framework

/-- A start symbol that is a text, or is left out, can fail in the grammar only. -/
theorem analyze_eq (typed : fields.value "start_symbol" = .null ∨
      ∃ name, fields.value "start_symbol" = .string name) (options : GrammarOptions) (text : String) :
    analyze room options text (fields.value "start_symbol") =
      match Analysis.ofText options text fields.start? with
      | .error cause => .error (failureOf "grammar_error" cause.message)
      | .ok analysis => if analysis.fits room then .ok analysis else .error systemError := by
  unfold analyze Fields.start?
  generalize fields.value "start_symbol" = start at typed ⊢
  rcases typed with rfl | ⟨name, rfl⟩ <;> rfl

section
variable {text : String} (cfg : fields.value "cfg" = .string text) (nonempty : text ≠ "")
include cfg nonempty

theorem isTruthy_cfg : (fields.value "cfg").isTruthy = true := by
  rw [cfg]
  simpa [Json.isTruthy] using nonempty

theorem parseProductions_eq :
    parseProductions fields = some (match fields.options with
      | .error cause => failureOf "config_error" cause.message
      | .ok options =>
        match Grammar.ofText options text none with
        | .error cause => refused (.unreadableGrammar cause)
        | .ok grammar => ⟨200, grammar.productionsJson⟩) := by
  unfold parseProductions withGrammarText
  rw [isTruthy_cfg cfg nonempty, cfg]
  cases fields.options with
  | error cause => rfl
  | ok options =>
    simp only [Workflow.parseProductions, Workflow.new]
    cases Grammar.ofText options text none <;> rfl

/-! ### Tables and pictures -/

section
variable {name : String} (start : fields.value "start_symbol" = .string name) (named : name ≠ "")
include start named

theorem buildTable_eq :
    buildTable room fields = some (match fields.options with
      | .error cause => failureOf "config_error" cause.message
      | .ok options =>
        match (Workflow.new text options).parseProductions with
        | (.error cause, _) => refused cause
        | (.ok _, workflow) =>
          match (workflow.setStart (.string name)).1 with
          | .error cause => refused cause
          | .ok analysis =>
            if analysis.fits room then shownOrError (tableResponse analysis) else systemError) := by
  have asked : (fields.value "start_symbol").isTruthy = true := by
    rw [start]
    simpa [Json.isTruthy] using named
  unfold buildTable withGrammarText
  dsimp only
  rw [isTruthy_cfg cfg nonempty, asked, cfg, start]
  cases fields.options <;> rfl

theorem buildTable_of_unaccepted {cause : Error} (unaccepted : fields.options = .error cause) :
    buildTable room fields = some (failureOf "config_error" cause.message) := by
  rw [buildTable_eq cfg nonempty start named, unaccepted]

/-- The table that is built in two steps is that of the analysis which is made in one. -/
theorem buildTable_of_ofText {options : GrammarOptions} {analysis : Analysis}
    (accepted : fields.options = .ok options)
    (made : Analysis.ofText options text (some name) = .ok analysis) :
    buildTable room fields =
      some (if analysis.fits room then shownOrError (tableResponse analysis) else systemError) := by
  obtain ⟨grammar, strategy, begun, known, rfl⟩ := Analysis.exists_of_ofText made
  obtain ⟨loaded, read, listed⟩ := Grammar.listed_of_ofText begun
  obtain ⟨started, restarted, same⟩ := Grammar.ofText_of_listed read listed
  obtain rfl : grammar = started := Except.ok.inj (begun.symm.trans same)
  -- the text is read without a start symbol, and the grammar gets the one that is asked for later
  have first : (Workflow.new text options).parseProductions =
      (.ok loaded, (Workflow.new text options).read loaded) :=
    Workflow.parseProductions_of_ofText read
  have second : (((Workflow.new text options).read loaded).buildTable loaded name).1 =
      .ok (Analysis.new grammar strategy) := Workflow.buildTable_of_withStart restarted known
  rw [buildTable_eq cfg nonempty start named, accepted]
  dsimp only
  rw [first]
  dsimp only
  rw [Workflow.setStart_read, if_pos listed, second]

theorem buildTable_refused {options : GrammarOptions} {cause : Error}
    (accepted : fields.options = .ok options)
    (failed : Analysis.ofText options text (some name) = .error cause) :
    ∃ response, buildTable room fields = some response ∧ response.status = 400 := by
  rw [buildTable_eq cfg nonempty start named, accepted]
  refine ⟨_, rfl, ?_⟩
  dsimp only
  cases read : Grammar.ofText options text none with
  | error cause =>
    have first : (Workflow.new text options).parseProductions =
        (.error (.unreadableGrammar cause), Workflow.new text options) := by
      simp only [Workflow.parseProductions, Workflow.new, read]
    rw [first]
    rfl
  | ok loaded =>
    have first : (Workflow.new text options).parseProductions =
        (.ok loaded, (Workflow.new text options).read loaded) :=
      Workflow.parseProductions_of_ofText read
    have unlisted : name ∉ loaded.nonTerminals.map Symbol.name := by
      intro listed
      obtain ⟨started, _, begun⟩ := Grammar.ofText_of_listed read listed
      obtain ⟨strategy, known⟩ := Fields.exists_strategy accepted
      rw [Analysis.ofText_eq_ok begun known] at failed
      cases failed
    rw [first]
    dsimp only
    rw [Workflow.setStart_read, if_neg unlisted]
    rfl

end

section
variable {input : String} (given : fields.value "input" = .string input)
include given

theorem visualize_eq (limit : Nat) :
    visualize room limit fields = match fields.options with
      | .error cause => some (failureOf "config_error" cause.message)
      | .ok options =>
        match analyze room options text (fields.value "start_symbol") with
        | .error response => some response
        | .ok analysis =>
          (analysis.table.parseText? limit input).map (parseResponse analysis) := by
  unfold visualize withGrammarText
  dsimp only
  rw [isTruthy_cfg cfg nonempty, cfg, given]
  cases fields.options with
  | error cause => rfl
  | ok options =>
    dsimp only
    cases analyze room options text (fields.value "start_symbol") with
    | error response => rfl
    | ok analysis =>
      simp only [inputNames?, ParseTable.parseText?]
      cases analysis.table.tokenize? input <;> rfl

theorem visualize_of_unaccepted {cause : Error} (unaccepted : fields.options = .error cause)
    (limit : Nat) :
    visualize room limit fields = some (failureOf "config_error" cause.message) := by
  rw [visualize_eq cfg nonempty given, unaccepted]

variable {options : GrammarOptions} (accepted : fields.options = .ok options)
  (typed : fields.value "start_symbol" = .null ∨
    ∃ name, fields.value "start_symbol" = .string name)
include accepted typed

theorem visualize_of_error {cause : Error}
    (failed : Analysis.ofText options text fields.start? = .error cause) (limit : Nat) :
    visualize room limit fields = some (failureOf "grammar_error" cause.message) := by
  rw [visualize_eq cfg nonempty given, accepted]
  dsimp only
  rw [analyze_eq typed, failed]

theorem visualize_of_ofText {analysis : Analysis}
    (made : Analysis.ofText options text fields.start? = .ok analysis) (limit : Nat) :
    visualize room limit fields =
      if analysis.fits room then
        (analysis.table.parseText? limit input).map (parseResponse analysis)
      else some systemError := by
  rw [visualize_eq cfg nonempty given, accepted]
  dsimp only
  rw [analyze_eq typed, made]
  cases enough : analysis.fits room <;> simp only [enough, if_true, if_false, Bool.false_eq_true]

/-- An analysis for which there is room is shown with the parse, unless the input has a token with a
reserved name. -/
theorem visualize_answers (ends : fields.DriverEnds) {analysis : Analysis}
    (made : Analysis.ofText options text fields.start? = .ok analysis)
    (enough : analysis.fits room = true) :
    ∃ tokens, analysis.table.tokenize? input = some tokens ∧
      ((∃ token ∈ tokens, Symbol.isReservedName token.type = true ∧
        Endpoint.visualize.Answers room fields
          (failureOf "input_error" (Error.reservedInput token.type).message)) ∨
      (∀ token ∈ tokens, Symbol.isReservedName token.type = false) ∧
        ∃ result, Endpoint.visualize.Answers room fields
          (shownOrError (visualization analysis result))) := by
  have analyzes : fields.Analyzes analysis := ⟨options, text, accepted, cfg, made⟩
  have shown (limit : Nat) : Endpoint.visualize.respond? room limit fields =
      (analysis.table.parseText? limit input).map (parseResponse analysis) := by
    rw [Endpoint.respond?, visualize_of_ofText cfg nonempty given accepted typed made limit,
      if_pos enough]
  have named : analysis.table.Named := by
    obtain ⟨grammar, strategy, rfl⟩ := analyzes.exists_new
    rw [Analysis.table_new]
    exact Grammar.parseTable_named
  obtain ⟨bound, answer, ended⟩ := ends input analysis given analyzes
  obtain ⟨tokens, read, parsed⟩ := Option.bind_eq_some_iff.mp ended
  have parse (limit : Nat) : analysis.table.parseText? limit input =
      analysis.table.parseNames? limit (tokens.map Token.type) := by
    simp only [ParseTable.parseText?, read, Option.bind_eq_bind, Option.bind_some]
  refine ⟨tokens, read, ?_⟩
  -- the names of the tokens alone decide whether there is a result, however long it takes
  rcases ParseTable.parseNames?_cases named (tokens.map Token.type) with
    ⟨name, member, reserved, failed⟩ | ⟨free, success⟩
  · obtain ⟨token, inside, rfl⟩ := List.mem_map.mp member
    refine .inl ⟨token, inside, reserved, Endpoint.answers_of_forall fun limit => ?_⟩
    rw [shown, parse, failed]
    rfl
  · refine .inr ⟨fun token member => free _ (List.mem_map_of_mem member), ?_⟩
    obtain ⟨result, rfl⟩ := success bound answer parsed
    refine ⟨result, bound, fun limit longer => ?_⟩
    rw [shown, parse, ParseTable.parseNames?_mono parsed longer]
    rfl

end

end

end Service

end Predictive
