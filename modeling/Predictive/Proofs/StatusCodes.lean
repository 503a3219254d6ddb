import Predictive.Proofs.Gateways

/-! Which status a response has. Where the text of a grammar, the input and the start symbol are texts
or are left out, every endpoint answers with a success or with a refusal that says what is wrong,
whatever else was sent, unless there is no room for the sets. But the body is read before anything is
expected to fail, so one that cannot be read is a failure without a word. -/

set_option autoImplicit false

namespace Predictive

namespace Service

namespace Fields

variable {fields : Fields} {room : CallRoom}

/-! ### What a request asks for -/

/-- A value that is left out, null or a text. -/
def MayName (fields : Fields) (key : String) : Prop :=
  fields.value key = .null ∨ ∃ text, fields.value key = .string text

/-- Every text that an endpoint reads may be left out, but is nothing else than a text. -/
structure WellTyped (fields : Fields) : Prop where
  cfg : fields.MayName "cfg"
  input : fields.MayName "input"
  start : fields.MayName "start_symbol"

/-- There are a text for a grammar, which is not empty, and an input. -/
def Complete (fields : Fields) : Prop :=
  (∃ text, fields.value "cfg" = .string text ∧ text ≠ "") ∧
    ∃ input, fields.value "input" = .string input

/-- The strategy counts as left out, or has a known name. -/
def NamesStrategy (fields : Fields) : Prop :=
  (fields.value "strategy").isTruthy = false ∨
    ∃ name ∈ strategyNames, fields.value "strategy" = .string name

/-- The text is that of a grammar with the start symbol that is asked for. -/
def Describes (fields : Fields) (grammar : Grammar) : Prop :=
  ∃ options text, fields.options = .ok options ∧ fields.value "cfg" = .string text ∧
    Grammar.ofText options text fields.start? = .ok grammar

/-- The tokens of the input come to an end, and none has a reserved name. -/
def ReadsCleanly (fields : Fields) (grammar : Grammar) : Prop :=
  ∀ input, fields.value "input" = .string input →
    ∃ tokens, Token.tokenize? grammar.terminals input = some tokens ∧
      ∀ token ∈ tokens, token.type ≠ Symbol.endOfInput.name ∧ token.type ≠ Symbol.epsilon.name

/-- An endpoint gets as far as the sets of a grammar for which there is no room. -/
def LacksRoom (fields : Fields) (room : CallRoom) : Endpoint → Prop
  | .parseProductions => False
  | .buildTable =>
    (∃ name, fields.value "start_symbol" = .string name ∧ name ≠ "") ∧ ¬ fields.Fits room
  | .visualize => (∃ input, fields.value "input" = .string input) ∧ ¬ fields.Fits room

/-- Sets that do not fit are those of an analysis, which is that of a text that is not empty. -/
theorem exists_of_not_fits (lacks : ¬ fields.Fits room) :
    ∃ options text analysis, fields.options = .ok options ∧ fields.value "cfg" = .string text ∧
      text ≠ "" ∧ Analysis.ofText options text fields.start? = .ok analysis ∧
        analysis.fits room = false := by
  obtain ⟨analysis, tight⟩ := not_forall.mp lacks
  obtain ⟨⟨options, text, accepted, cfg, made⟩, tight⟩ := Classical.not_imp.mp tight
  refine ⟨options, text, analysis, accepted, cfg, ?_, made, by simpa using tight⟩
  rintro rfl
  rw [Analysis.ofText_empty] at made
  cases made

/-- Only the descents can lack room. -/
theorem LacksRoom.strategy {endpoint : Endpoint} (lacks : fields.LacksRoom room endpoint) :
    fields.value "strategy" = .string "recursive" := by
  by_contra other
  have fits : fields.Fits room := fits_of_strategy other
  cases endpoint with
  | parseProductions => exact lacks
  | buildTable => exact lacks.2 fits
  | visualize => exact lacks.2 fits

theorem namesStrategy_iff : fields.NamesStrategy ↔ ∃ options, fields.options = .ok options := by
  unfold NamesStrategy Fields.options GrammarOptions.checked
  dsimp only
  by_cases given : (fields.value "strategy").isTruthy = true
  · simp only [given, if_true, Bool.true_eq_false, false_or, List.contains_iff_mem]
    constructor
    · rintro ⟨name, listed, same⟩
      rw [same]
      exact ⟨_, if_pos listed⟩
    · rintro ⟨options, accepted⟩
      split at accepted
      · exact Json.eq_string_of_text ‹_›
      · cases accepted
  · simp only [given]
    exact iff_of_true (.inl trivial) ⟨_, rfl⟩

/-- A text is missing, or it is there and not empty. -/
theorem MayName.cases {key : String} (may : fields.MayName key) :
    (fields.value key).isTruthy = false ∨ ∃ text, fields.value key = .string text ∧ text ≠ "" := by
  rcases may with absent | ⟨text, given⟩
  · exact .inl (by rw [absent]; rfl)
  · by_cases empty : text = ""
    · exact .inl (by rw [given, empty]; rfl)
    · exact .inr ⟨text, given, empty⟩

end Fields

variable {fields : Fields} {room : CallRoom}

/-! ### Lists and tables -/

theorem parseProductions_status (cfg : fields.MayName "cfg") :
    ∃ response, parseProductions fields = some response ∧
      (response.status = 200 ∨ response.status = 400) := by
  rcases cfg.cases with missing | ⟨text, given, nonempty⟩
  · exact ⟨failure "No CFG provided", by simp [parseProductions, missing], .inr rfl⟩
  · refine ⟨_, parseProductions_eq given nonempty, ?_⟩
    cases fields.options with
    | error cause => exact .inr rfl
    | ok options =>
      dsimp only
      cases Grammar.ofText options text none with
      | error cause => exact .inr rfl
      | ok grammar => exact .inl rfl

theorem buildTable_status (cfg : fields.MayName "cfg") (start : fields.MayName "start_symbol")
    (enough : ¬ fields.LacksRoom room .buildTable) :
    ∃ response, buildTable room fields = some response ∧
      (response.status = 200 ∨ response.status = 400) := by
  rcases cfg.cases with missing | ⟨text, given, nonempty⟩
  · exact ⟨failure "No CFG provided", by simp [buildTable, missing], .inr rfl⟩
  · have there := isTruthy_cfg given nonempty
    rcases start.cases with missing | ⟨name, asked, named⟩
    · exact ⟨failure "No start symbol provided", by simp [buildTable, there, missing], .inr rfl⟩
    · cases accepted : fields.options with
      | error cause =>
        exact ⟨_, buildTable_of_unaccepted given nonempty asked named accepted, .inr rfl⟩
      | ok options =>
        cases made : Analysis.ofText options text (some name) with
        | error cause =>
          obtain ⟨response, answered, status⟩ :=
            buildTable_refused given nonempty asked named accepted made
          exact ⟨response, answered, .inr status⟩
        | ok analysis =>
          have begun : Analysis.ofText options text fields.start? = .ok analysis := by
            rw [Fields.start?_of_string asked, made]
          have analyzes : fields.Analyzes analysis := ⟨options, text, accepted, given, begun⟩
          have fits : fields.Fits room := not_not.mp fun lacks => enough ⟨⟨name, asked, named⟩, lacks⟩
          obtain ⟨grammar, strategy, rfl⟩ := analyzes.exists_new
          obtain ⟨table, told, status, _⟩ := exists_tableResponse grammar strategy
          refine ⟨table, ?_, .inl status⟩
          rw [buildTable_of_ofText given nonempty asked named accepted made,
            if_pos (analyzes.fits_iff.mp fits), told]
          rfl

theorem buildTable_of_lacksRoom (lacks : fields.LacksRoom room .buildTable) :
    buildTable room fields = some systemError := by
  obtain ⟨⟨name, asked, named⟩, tight⟩ := lacks
  obtain ⟨options, text, analysis, accepted, cfg, nonempty, made, full⟩ :=
    Fields.exists_of_not_fits tight
  have begun : Analysis.ofText options text (some name) = .ok analysis := by
    rw [← Fields.start?_of_string asked, made]
  rw [buildTable_of_ofText cfg nonempty asked named accepted begun, if_neg (by simp [full])]

/-! ### Pictures -/

/-- What a picture tells, or its refusal: the kind of error is that of the first thing that is wrong,
in the order of the request, the options, the grammar and the input. -/
structure Settles (fields : Fields) (response : Response) : Prop where
  shown : response.status = 200 ↔ fields.Complete ∧ fields.NamesStrategy ∧
    ∃ grammar, fields.Describes grammar ∧ fields.ReadsCleanly grammar
  incomplete : ¬ fields.Complete → response.errorType? = none
  unknown : fields.Complete → ¬ fields.NamesStrategy →
    response.errorType? = some (.string "config_error")
  unreadable : fields.Complete → fields.NamesStrategy → (¬ ∃ grammar, fields.Describes grammar) →
    response.errorType? = some (.string "grammar_error")
  reserved : fields.Complete → fields.NamesStrategy →
    ∀ grammar, fields.Describes grammar → ¬ fields.ReadsCleanly grammar →
      response.errorType? = some (.string "input_error")

theorem visualize_of_incomplete (typed : fields.WellTyped) (missing : ¬ fields.Complete) :
    ∃ message, ∀ limit, visualize room limit fields = some (failure message) := by
  rcases typed.cfg.cases with absent | ⟨text, given, nonempty⟩
  · exact ⟨"No CFG provided", fun limit => by simp [visualize, absent]⟩
  · have there := isTruthy_cfg given nonempty
    rcases typed.input with absent | ⟨input, present⟩
    · exact ⟨"No input string provided", fun limit => by simp [visualize, there, absent]⟩
    · exact absurd ⟨⟨text, given, nonempty⟩, input, present⟩ missing

theorem settles_incomplete (missing : ¬ fields.Complete) (message : String) :
    Settles fields (failure message) where
  shown := iff_of_false (by decide : ¬ 400 = 200) fun all => missing all.1
  incomplete _ := rfl
  unknown complete := absurd complete missing
  unreadable complete := absurd complete missing
  reserved complete := absurd complete missing

theorem settles_unknown (complete : fields.Complete) (unknown : ¬ fields.NamesStrategy)
    (message : String) : Settles fields (failureOf "config_error" message) where
  shown := iff_of_false (by decide : ¬ 400 = 200) fun all => unknown all.2.1
  incomplete missing := absurd complete missing
  unknown _ _ := rfl
  unreadable _ known := absurd known unknown
  reserved _ known := absurd known unknown

theorem settles_unreadable (complete : fields.Complete) (known : fields.NamesStrategy)
    (unreadable : ¬ ∃ grammar, fields.Describes grammar) (message : String) :
    Settles fields (failureOf "grammar_error" message) where
  shown := iff_of_false (by decide : ¬ 400 = 200) fun ⟨_, _, grammar, read, _⟩ =>
    unreadable ⟨grammar, read⟩
  incomplete missing := absurd complete missing
  unknown _ unknown := absurd known unknown
  unreadable _ _ _ := rfl
  reserved _ _ grammar read := absurd ⟨grammar, read⟩ unreadable

theorem Fields.describes_iff {options : GrammarOptions} {text : String} {grammar : Grammar}
    (accepted : fields.options = .ok options) (cfg : fields.value "cfg" = .string text) :
    fields.Describes grammar ↔ Grammar.ofText options text fields.start? = .ok grammar :=
  exists_cfg_iff accepted cfg fun options text =>
    Grammar.ofText options text fields.start? = .ok grammar

theorem Fields.Describes.unique {first second : Grammar} (one : fields.Describes first)
    (other : fields.Describes second) : first = second := by
  obtain ⟨options, text, accepted, cfg, read⟩ := one
  exact Except.ok.inj (read.symm.trans ((Fields.describes_iff accepted cfg).mp other))

section
variable {grammar : Grammar} (complete : fields.Complete) (known : fields.NamesStrategy)
  (read : fields.Describes grammar)
include complete known read

theorem settles_reserved (unclean : ¬ fields.ReadsCleanly grammar) (message : String) :
    Settles fields (failureOf "input_error" message) where
  shown := iff_of_false (by decide : ¬ 400 = 200) fun ⟨_, _, _, other, clean⟩ =>
    unclean (read.unique other ▸ clean)
  incomplete missing := absurd complete missing
  unknown _ unknown := absurd known unknown
  unreadable _ _ unreadable := absurd ⟨grammar, read⟩ unreadable
  reserved _ _ _ _ _ := rfl

theorem settles_shown (clean : fields.ReadsCleanly grammar) {picture : Response}
    (success : picture.status = 200) : Settles fields picture where
  shown := iff_of_true success ⟨complete, known, grammar, read, clean⟩
  incomplete missing := absurd complete missing
  unknown _ unknown := absurd known unknown
  unreadable _ _ unreadable := absurd ⟨grammar, read⟩ unreadable
  reserved _ _ _ other unclean := absurd (read.unique other ▸ clean) unclean

end

theorem Fields.readsCleanly_iff {input : String} {grammar : Grammar} {tokens : List Token}
    (given : fields.value "input" = .string input)
    (read : Token.tokenize? grammar.terminals input = some tokens) :
    fields.ReadsCleanly grammar ↔ ∀ token ∈ tokens, Symbol.isReservedName token.type = false := by
  have unreserved (name : String) : Symbol.isReservedName name = false ↔
      name ≠ Symbol.endOfInput.name ∧ name ≠ Symbol.epsilon.name := by
    simp [Symbol.isReservedName, and_comm]
  simp only [unreserved]
  constructor
  · intro clean
    obtain ⟨others, same, free⟩ := clean input given
    obtain rfl := Option.some.inj (read.symm.trans same)
    exact free
  · intro free other same
    cases given.symm.trans same
    exact ⟨tokens, read, free⟩

theorem visualize_settles_accepted (typed : fields.WellTyped) (ends : fields.DriverEnds)
    (complete : fields.Complete) (enough : fields.Fits room) {options : GrammarOptions}
    (accepted : fields.options = .ok options) :
    ∃ response, Endpoint.visualize.Answers room fields response ∧
      (response.status = 200 ∨ response.status = 400) ∧ Settles fields response := by
  have known : fields.NamesStrategy := Fields.namesStrategy_iff.mpr ⟨options, accepted⟩
  obtain ⟨⟨text, cfg, nonempty⟩, input, given⟩ := id complete
  cases made : Analysis.ofText options text fields.start? with
  | error cause =>
    have unreadable : ¬ ∃ grammar, fields.Describes grammar := by
      rintro ⟨grammar, described⟩
      obtain ⟨strategy, named⟩ := Fields.exists_strategy accepted
      have read := (Fields.describes_iff accepted cfg).mp described
      rw [Analysis.ofText_eq_ok read named] at made
      cases made
    exact ⟨_, Endpoint.answers_of_forall
        (visualize_of_error cfg nonempty given accepted typed.start made), .inr rfl,
      settles_unreadable complete known unreadable _⟩
  | ok analysis =>
    have fits := enough analysis ⟨options, text, accepted, cfg, made⟩
    obtain ⟨grammar, strategy, read, _, rfl⟩ := Analysis.exists_of_ofText made
    have described : fields.Describes grammar := (Fields.describes_iff accepted cfg).mpr read
    obtain ⟨tokens, cut, outcome⟩ :=
      visualize_answers cfg nonempty given accepted typed.start ends made fits
    rw [ParseTable.tokenize?, Analysis.table_new] at cut
    have cleanly := Fields.readsCleanly_iff given cut
    rcases outcome with ⟨token, member, reserved, refused⟩ | ⟨free, result, shown⟩
    · have unclean : ¬ fields.ReadsCleanly grammar := by
        intro clean
        simp [cleanly.mp clean token member] at reserved
      exact ⟨_, refused, .inr rfl, settles_reserved complete known described unclean _⟩
    · obtain ⟨_, _, _, pictures⟩ := exists_tableResponse grammar strategy
      obtain ⟨picture, drawn, success, _⟩ := pictures result
      rw [drawn] at shown
      exact ⟨picture, shown, .inl success,
        settles_shown complete known described (cleanly.mpr free) success⟩

/-- A picture, or a refusal, always comes, and tells the first thing that is wrong. -/
theorem visualize_settles (typed : fields.WellTyped) (ends : fields.DriverEnds)
    (enough : ¬ fields.LacksRoom room .visualize) :
    ∃ response, Endpoint.visualize.Answers room fields response ∧
      (response.status = 200 ∨ response.status = 400) ∧ Settles fields response := by
  by_cases complete : fields.Complete
  · have fits : fields.Fits room := not_not.mp fun lacks => enough ⟨complete.2, lacks⟩
    cases accepted : fields.options with
    | ok options => exact visualize_settles_accepted typed ends complete fits accepted
    | error cause =>
      have unknown : ¬ fields.NamesStrategy := by
        intro known
        obtain ⟨options, other⟩ := Fields.namesStrategy_iff.mp known
        rw [accepted] at other
        cases other
      obtain ⟨⟨text, cfg, nonempty⟩, input, given⟩ := id complete
      exact ⟨_, Endpoint.answers_of_forall (visualize_of_unaccepted cfg nonempty given accepted),
        .inr rfl, settles_unknown complete unknown _⟩
  · obtain ⟨message, missing⟩ := visualize_of_incomplete typed complete
    exact ⟨_, Endpoint.answers_of_forall missing, .inr rfl, settles_incomplete complete message⟩

theorem visualize_of_lacksRoom (typed : fields.WellTyped) (lacks : fields.LacksRoom room .visualize)
    (limit : Nat) : visualize room limit fields = some systemError := by
  obtain ⟨⟨input, given⟩, tight⟩ := lacks
  obtain ⟨options, text, analysis, accepted, cfg, nonempty, made, full⟩ :=
    Fields.exists_of_not_fits tight
  rw [visualize_of_ofText cfg nonempty given accepted typed.start made, if_neg (by simp [full])]

/-! ### All endpoints -/

/-- What an endpoint answers where the texts are texts. -/
structure Endpoint.Meets (room : CallRoom) (endpoint : Endpoint) (fields : Fields)
    (response : Response) : Prop where
  descends : fields.LacksRoom room endpoint → fields.value "strategy" = .string "recursive"
  full : fields.LacksRoom room endpoint → response = systemError
  status : ¬ fields.LacksRoom room endpoint → response.status = 200 ∨ response.status = 400
  settles : endpoint = .visualize → ¬ fields.LacksRoom room endpoint → Settles fields response

theorem Endpoint.exists_answer (endpoint : Endpoint) (room : CallRoom) (typed : fields.WellTyped)
    (ends : endpoint = .visualize → fields.DriverEnds) :
    ∃ response, endpoint.Answers room fields response ∧ endpoint.Meets room fields response := by
  by_cases lacks : fields.LacksRoom room endpoint
  · refine ⟨systemError, answers_of_forall fun limit => ?_, Fields.LacksRoom.strategy, fun _ => rfl,
      absurd lacks, fun _ => absurd lacks⟩
    cases endpoint with
    | parseProductions => exact lacks.elim
    | buildTable => exact buildTable_of_lacksRoom lacks
    | visualize => exact visualize_of_lacksRoom typed lacks limit
  · cases endpoint with
    | parseProductions =>
      obtain ⟨response, answered, status⟩ := parseProductions_status typed.cfg
      exact ⟨response, answers_of_forall fun _ => answered, False.elim, False.elim, fun _ => status,
        nofun⟩
    | buildTable =>
      obtain ⟨response, answered, status⟩ := buildTable_status typed.cfg typed.start lacks
      exact ⟨response, answers_of_forall fun _ => answered, Fields.LacksRoom.strategy,
        fun tight => absurd tight lacks, fun _ => status, nofun⟩
    | visualize =>
      obtain ⟨response, answers, status, settles⟩ := visualize_settles typed (ends rfl) lacks
      exact ⟨response, answers, Fields.LacksRoom.strategy, fun tight => absurd tight lacks,
        fun _ => status, fun _ _ => settles⟩

section
variable {Body : Type} {framework : Framework Body} {request : Request Body} {endpoint : Endpoint}
  (lawful : framework.Lawful) (path : request.path = endpoint.path) (method : request.method = "POST")
include lawful path method

theorem responds_failed (unread : framework.fields? request.body = none) :
    framework.Responds request framework.failed := by
  refine ⟨endpoint, lawful.routed request endpoint path method, 0, fun limit _ => ?_⟩
  rw [Framework.respond?, unread]

/-- A body that cannot be read, or that has no fields, fails. A request whose texts are texts is no
failure otherwise, unless there is no room for the sets. -/
theorem well_typed_requests_answered :
    (framework.fields? request.body = none →
      framework.Responds request framework.failed ∧ framework.failed.status = 500) ∧
    ∀ fields : Fields, framework.fields? request.body = some fields → fields.WellTyped →
      (endpoint = .visualize → fields.DriverEnds) →
        ∃ response, framework.Responds request response ∧
          endpoint.Meets framework.room fields response := by
  refine ⟨fun unread => ⟨responds_failed lawful path method unread, lawful.failed⟩, ?_⟩
  intro fields read typed ends
  obtain ⟨response, answers, meets⟩ := endpoint.exists_answer framework.room typed ends
  have asks : framework.Asks request endpoint fields := ⟨path, method, read⟩
  exact ⟨response, asks.responds lawful answers, meets⟩

end

theorem well_typed_requests_answered_list :
    let framework := Gateway.framework 979 980
    let request := Endpoint.visualize.post (Gateway.Payload.json (.object Gateway.listFields))
    framework.Lawful ∧ request.path = Endpoint.visualize.path ∧ request.method = "POST" ∧
      Gateway.listFields.WellTyped ∧ Gateway.listFields.DriverEnds ∧
      ¬ Gateway.listFields.LacksRoom framework.room .visualize ∧
        ∃ response, framework.Responds request response ∧
          (response.status = 200 ∨ response.status = 400) ∧ Settles Gateway.listFields response := by
  intro framework request
  have lawful : framework.Lawful := Gateway.lawful_framework 979 980
  have typed : Gateway.listFields.WellTyped := ⟨.inr ⟨_, rfl⟩, .inr ⟨_, rfl⟩, .inr ⟨_, rfl⟩⟩
  have enough : ¬ Gateway.listFields.LacksRoom framework.room .visualize :=
    fun lacks => lacks.2 (Gateway.fits_listFields (by decide))
  have path : request.path = Endpoint.visualize.path := rfl
  obtain ⟨response, responds, meets⟩ := (well_typed_requests_answered lawful path rfl).2
    Gateway.listFields (Gateway.fields?_list 979 980) typed fun _ => Gateway.driverEnds_listFields
  exact ⟨lawful, rfl, rfl, typed, Gateway.driverEnds_listFields, enough, response, responds,
    meets.status enough, meets.settles rfl enough⟩

/-- Whatever the gateway opens at most, there is a body that fails although nothing is wrong with its
texts. -/
theorem nested_requests_fail :
    ¬ ∃ nesting room : Nat, ∀ (endpoint : Endpoint) (fields : Fields), fields.WellTyped →
      fields.DriverEnds → ∃ response,
        (Gateway.framework nesting room).Responds (endpoint.post (Gateway.written fields)) response ∧
          (response.status = 200 ∨ response.status = 400) := by
  rintro ⟨nesting, room, claimed⟩
  have typed : Fields.WellTyped [("x", .nested (2 * nesting))] := ⟨.inl rfl, .inl rfl, .inl rfl⟩
  have ends : Fields.DriverEnds [("x", .nested (2 * nesting))] := nofun
  obtain ⟨response, responds, status⟩ := claimed .visualize _ typed ends
  let request := Endpoint.visualize.post (Gateway.written [("x", .nested (2 * nesting))])
  have path : request.path = Endpoint.visualize.path := rfl
  have failed := responds_failed (Gateway.lawful_framework nesting room) path rfl
    (Gateway.fields?_nested nesting room)
  obtain rfl := responds.unique failed
  have code := (Gateway.lawful_framework nesting room).failed
  omega

end Service

end Predictive
