import Predictive.Proofs.DeepChains
import Predictive.Proofs.Gateways

/-! The endpoints agree. One of them lists the start symbols of a grammar text, one builds its table
from a start symbol, and one shows the table with a parse; whoever asks all three with the same text
and options is told the same. Listing takes no sets, so only the other two can lack room for them. -/

set_option autoImplicit false

namespace Predictive

theorem Json.strings_inj {left right : List String} (same : Json.strings left = Json.strings right) :
    left = right :=
  List.map_injective_iff.mpr (fun _ _ => Json.string.inj) (Json.array.inj same)

namespace Service

/-- Fields that agree in the values of some keys, or in their absence. -/
def Fields.AgreeOn (keys : List String) (left right : Fields) : Prop :=
  ∀ key ∈ keys, Json.member? left key = Json.member? right key

/-- The keys of the options that a request may send. -/
def optionKeys : List String := ["compact_symbols", "strict_nonterminals", "strategy"]

theorem Fields.AgreeOn.options {left right : Fields} (agree : left.AgreeOn optionKeys right) :
    left.options = right.options := by
  have compact := agree "compact_symbols" (by simp [optionKeys])
  have strict := agree "strict_nonterminals" (by simp [optionKeys])
  have strategy := agree "strategy" (by simp [optionKeys])
  unfold Fields.options Fields.flag Fields.value
  rw [compact, strict, strategy]

variable {Body : Type} {framework : Framework Body} {text name input : String}
  {options : GrammarOptions}

/-- Three requests, one to each endpoint, with the same text and options. Two of them ask for the same
start symbol, and one has an input on which the driver ends. -/
structure Framework.Inquiry (framework : Framework Body) where
  text : String
  name : String
  input : String
  listed : Fields
  built : Fields
  shown : Fields
  listing : Request Body
  building : Request Body
  showing : Request Body
  asks_listed : framework.Asks listing .parseProductions listed
  asks_built : framework.Asks building .buildTable built
  asks_shown : framework.Asks showing .visualize shown
  cfg : ∀ fields ∈ [listed, built, shown], fields.value "cfg" = .string text
  same : ∀ fields ∈ [built, shown], fields.AgreeOn optionKeys listed
  start : ∀ fields ∈ [built, shown], fields.value "start_symbol" = .string name
  given : shown.value "input" = .string input
  nonempty : text ≠ ""
  named : name ≠ ""
  ends : shown.DriverEnds

/-- A response that lists a name among the start symbols. -/
def Response.Lists (response : Response) (name : String) : Prop :=
  response.status = 200 ∧
    ∃ names, response.body.get? "start_symbols" = some (.strings names) ∧ name ∈ names

/-- What three responses about one grammar tell together: the table is built if and only if the start
symbol is listed and the sets fit, the picture is refused at most for its input then, and both tell
the same. What does not fit is an error of the system, and what is not listed is refused. -/
structure Agree (name : String) (fits : Prop) (symbols table picture : Response) : Prop where
  built : table.status = 200 ↔ symbols.Lists name ∧ fits
  listed : symbols.Lists name → fits → picture.status = 200 ∨
    picture.status = 400 ∧ picture.errorType? = some (.string "input_error")
  full : symbols.Lists name → ¬ fits → table = systemError ∧ picture = systemError
  unlisted : ¬ symbols.Lists name → table.status = 400 ∧ picture.status = 400 ∧
    picture.errorType? ≠ some (.string "input_error")
  same : table.status = 200 → picture.status = 200 → table.Matches picture

theorem agree_of_unlisted {kind : String} {fits : Prop} {symbols table : Response}
    (unlisted : ¬ symbols.Lists name) (status : table.status = 400) (message : String)
    (other : kind ≠ "input_error") : Agree name fits symbols table (failureOf kind message) where
  built := iff_of_false (by simp [status]) fun both => unlisted both.1
  listed lists := absurd lists unlisted
  full lists := absurd lists unlisted
  unlisted _ := ⟨status, rfl, by simpa using other⟩
  same := by simp [status]

/-- The listed start symbols are those from which the text can be analyzed. -/
theorem lists_iff {fields : Fields} (cfg : fields.value "cfg" = .string text) (nonempty : text ≠ "")
    (accepted : fields.options = .ok options) (name : String) :
    ∃ response, parseProductions fields = some response ∧
      (response.Lists name ↔ ∃ analysis, Analysis.ofText options text (some name) = .ok analysis) := by
  refine ⟨_, parseProductions_eq cfg nonempty, ?_⟩
  rw [accepted]
  dsimp only
  cases read : Grammar.ofText options text none with
  | error cause =>
    refine iff_of_false (fun lists => (by decide : ¬ 400 = 200) lists.1) ?_
    rintro ⟨analysis, made⟩
    obtain ⟨_, _, begun, _⟩ := Analysis.exists_of_ofText made
    obtain ⟨_, loaded, _⟩ := Grammar.listed_of_ofText begun
    rw [read] at loaded
    cases loaded
  | ok loaded =>
    constructor
    · rintro ⟨_, names, told, listed⟩
      obtain rfl : loaded.nonTerminals.map Symbol.name = names :=
        Json.strings_inj (Option.some.inj told)
      obtain ⟨_, _, begun⟩ := Grammar.ofText_of_listed read listed
      obtain ⟨strategy, known⟩ := Fields.exists_strategy accepted
      exact ⟨_, Analysis.ofText_eq_ok begun known⟩
    · rintro ⟨analysis, made⟩
      obtain ⟨_, _, begun, _⟩ := Analysis.exists_of_ofText made
      obtain ⟨again, loaded, listed⟩ := Grammar.listed_of_ofText begun
      obtain rfl := Except.ok.inj (read.symm.trans loaded)
      exact ⟨rfl, _, rfl, listed⟩

/-! ### Tables and pictures -/

section
variable {room : CallRoom} {built shown : Fields} {symbols : Response}
  (built_cfg : built.value "cfg" = .string text) (shown_cfg : shown.value "cfg" = .string text)
  (nonempty : text ≠ "") (built_options : built.options = .ok options)
  (shown_options : shown.options = .ok options) (named : name ≠ "")
  (built_start : built.value "start_symbol" = .string name)
  (shown_start : shown.value "start_symbol" = .string name)
  (given : shown.value "input" = .string input)
include built_cfg shown_cfg nonempty built_options shown_options named built_start shown_start given

theorem agree_of_refused (unlisted : ¬ symbols.Lists name) {cause : Error}
    (failed : Analysis.ofText options text (some name) = .error cause) :
    ∃ table picture, Endpoint.buildTable.Answers room built table ∧
      Endpoint.visualize.Answers room shown picture ∧
        Agree name (shown.Fits room) symbols table picture := by
  obtain ⟨table, refused, status⟩ :=
    buildTable_refused built_cfg nonempty built_start named built_options failed
  have wanted := Fields.start?_of_string shown_start
  have pictured (limit : Nat) : Endpoint.visualize.respond? room limit shown =
      some (failureOf "grammar_error" cause.message) :=
    visualize_of_error shown_cfg nonempty given shown_options (.inr ⟨name, shown_start⟩)
      (wanted ▸ failed) limit
  exact ⟨table, _, Endpoint.answers_of_forall fun _ => refused, Endpoint.answers_of_forall pictured,
    agree_of_unlisted unlisted status _ (by decide)⟩

theorem agree_of_analysis (listed : symbols.Lists name) (ends : shown.DriverEnds)
    {analysis : Analysis} (made : Analysis.ofText options text (some name) = .ok analysis) :
    ∃ table picture, Endpoint.buildTable.Answers room built table ∧
      Endpoint.visualize.Answers room shown picture ∧
        Agree name (shown.Fits room) symbols table picture := by
  have typed : shown.value "start_symbol" = .null ∨
      ∃ name, shown.value "start_symbol" = .string name := .inr ⟨name, shown_start⟩
  have begun : Analysis.ofText options text shown.start? = .ok analysis := by
    rw [Fields.start?_of_string shown_start, made]
  have analyzes : shown.Analyzes analysis := ⟨options, text, shown_options, shown_cfg, begun⟩
  have tabled (limit : Nat) : Endpoint.buildTable.respond? room limit built =
      some (if analysis.fits room then shownOrError (tableResponse analysis) else systemError) :=
    buildTable_of_ofText built_cfg nonempty built_start named built_options made
  cases enough : analysis.fits room with
  | false =>
    have lacks : ¬ shown.Fits room := by
      rw [analyzes.fits_iff, enough]
      decide
    refine ⟨systemError, systemError, Endpoint.answers_of_forall fun limit => ?_,
      Endpoint.answers_of_forall fun limit => ?_, ?_⟩
    · rw [tabled, if_neg (by simp [enough])]
    · rw [Endpoint.respond?, visualize_of_ofText shown_cfg nonempty given shown_options typed begun,
        if_neg (by simp [enough])]
    · exact ⟨iff_of_false (by decide) fun both => lacks both.2, fun _ fits => absurd fits lacks,
        fun _ _ => ⟨rfl, rfl⟩, absurd listed, fun wrong => absurd wrong (by decide)⟩
  | true =>
    have fits : shown.Fits room := analyzes.fits_iff.mpr enough
    obtain ⟨grammar, strategy, rfl⟩ := analyzes.exists_new
    obtain ⟨table, told, status, pictures⟩ := exists_tableResponse grammar strategy
    have answered : Endpoint.buildTable.Answers room built table :=
      Endpoint.answers_of_forall fun limit => by rw [tabled, if_pos enough, told]; rfl
    have both : table.status = 200 ↔ symbols.Lists name ∧ shown.Fits room :=
      iff_of_true status ⟨listed, fits⟩
    -- the picture comes with the same table, or its input is refused
    obtain ⟨_, _, ⟨token, _, _, refused⟩ | ⟨_, result, pictured⟩⟩ :=
      visualize_answers shown_cfg nonempty given shown_options typed ends begun enough
    · exact ⟨table, _, answered, refused, both, fun _ _ => .inr ⟨rfl, rfl⟩,
        fun _ lacks => absurd fits lacks, absurd listed,
        fun _ wrong => absurd wrong (by decide : ¬ 400 = 200)⟩
    · obtain ⟨picture, drawn, success, same⟩ := pictures result
      rw [drawn] at pictured
      exact ⟨table, picture, answered, pictured, both, fun _ _ => .inl success,
        fun _ lacks => absurd fits lacks, absurd listed, fun _ _ => same⟩

end

theorem Framework.Inquiry.exists_answers (inquiry : framework.Inquiry) :
    ∃ symbols table picture,
      Endpoint.parseProductions.Answers framework.room inquiry.listed symbols ∧
      Endpoint.buildTable.Answers framework.room inquiry.built table ∧
      Endpoint.visualize.Answers framework.room inquiry.shown picture ∧
        Agree inquiry.name (inquiry.shown.Fits framework.room) symbols table picture := by
  have listed_cfg := inquiry.cfg inquiry.listed (by simp)
  have built_cfg := inquiry.cfg inquiry.built (by simp)
  have shown_cfg := inquiry.cfg inquiry.shown (by simp)
  have built_same := (inquiry.same inquiry.built (by simp)).options
  have shown_same := (inquiry.same inquiry.shown (by simp)).options
  have built_start := inquiry.start inquiry.built (by simp)
  have shown_start := inquiry.start inquiry.shown (by simp)
  cases accepted : inquiry.listed.options with
  | error cause =>
    let refusal := failureOf "config_error" cause.message
    have symbols : parseProductions inquiry.listed = some refusal := by
      rw [parseProductions_eq listed_cfg inquiry.nonempty, accepted]
    have table : buildTable framework.room inquiry.built = some refusal :=
      buildTable_of_unaccepted built_cfg inquiry.nonempty built_start inquiry.named
        (built_same.trans accepted)
    have picture (limit : Nat) : visualize framework.room limit inquiry.shown = some refusal :=
      visualize_of_unaccepted shown_cfg inquiry.nonempty inquiry.given (shown_same.trans accepted) limit
    have unlisted : ¬ refusal.Lists inquiry.name := fun lists => (by decide : ¬ 400 = 200) lists.1
    exact ⟨refusal, refusal, refusal, Endpoint.answers_of_forall fun _ => symbols,
      Endpoint.answers_of_forall fun _ => table, Endpoint.answers_of_forall picture,
      agree_of_unlisted unlisted rfl _ (by decide)⟩
  | ok options =>
    obtain ⟨symbols, told, lists⟩ := lists_iff listed_cfg inquiry.nonempty accepted inquiry.name
    have listing : Endpoint.parseProductions.Answers framework.room inquiry.listed symbols :=
      Endpoint.answers_of_forall fun _ => told
    refine ⟨symbols, ?_⟩
    cases made : Analysis.ofText options inquiry.text (some inquiry.name) with
    | error cause =>
      have unlisted : ¬ symbols.Lists inquiry.name := by
        rw [lists, made]
        rintro ⟨_, ⟨⟩⟩
      obtain ⟨table, picture, second, third, agree⟩ := agree_of_refused built_cfg shown_cfg
        inquiry.nonempty (built_same.trans accepted) (shown_same.trans accepted) inquiry.named
        built_start shown_start inquiry.given unlisted made
      exact ⟨table, picture, listing, second, third, agree⟩
    | ok analysis =>
      obtain ⟨table, picture, second, third, agree⟩ := agree_of_analysis built_cfg shown_cfg
        inquiry.nonempty (built_same.trans accepted) (shown_same.trans accepted) inquiry.named
        built_start shown_start inquiry.given (lists.mpr ⟨analysis, made⟩) inquiry.ends made
      exact ⟨table, picture, listing, second, third, agree⟩

/-- Three requests with one text, the same options and one start symbol get answers that agree, as far
as there is room for the sets; for those of the passes there always is. -/
theorem endpoints_agree (lawful : framework.Lawful) (inquiry : framework.Inquiry) :
    (inquiry.shown.value "strategy" ≠ .string "recursive" → inquiry.shown.Fits framework.room) ∧
    ∃ symbols table picture, framework.Responds inquiry.listing symbols ∧
      framework.Responds inquiry.building table ∧ framework.Responds inquiry.showing picture ∧
        Agree inquiry.name (inquiry.shown.Fits framework.room) symbols table picture := by
  obtain ⟨symbols, table, picture, first, second, third, agree⟩ := inquiry.exists_answers
  exact ⟨Fields.fits_of_strategy, symbols, table, picture,
    inquiry.asks_listed.responds lawful first, inquiry.asks_built.responds lawful second,
    inquiry.asks_shown.responds lawful third, agree⟩

/-- The inquiry with one body for all three endpoints. -/
def Framework.Inquiry.ofBody {fields : Fields} (body : Body)
    (read : framework.fields? body = some fields) (cfg : fields.value "cfg" = .string text)
    (nonempty : text ≠ "") (start : fields.value "start_symbol" = .string name) (named : name ≠ "")
    (given : fields.value "input" = .string input) (ends : fields.DriverEnds) :
    framework.Inquiry where
  text := text
  name := name
  input := input
  listed := fields
  built := fields
  shown := fields
  listing := Endpoint.parseProductions.post body
  building := Endpoint.buildTable.post body
  showing := Endpoint.visualize.post body
  asks_listed := Framework.asks_post _ read
  asks_built := Framework.asks_post _ read
  asks_shown := Framework.asks_post _ read
  cfg := by simp only [List.forall_mem_cons]; exact ⟨cfg, cfg, cfg, nofun⟩
  same := by simp only [List.forall_mem_cons]; exact ⟨fun _ _ => rfl, fun _ _ => rfl, nofun⟩
  start := by simp only [List.forall_mem_cons]; exact ⟨start, start, nofun⟩
  given := given
  nonempty := nonempty
  named := named
  ends := ends

theorem endpoints_agree_list :
    let framework := Gateway.framework 979 980
    let body : Gateway.Payload := .json (.object Gateway.listFields)
    framework.Lawful ∧ Gateway.listFields.Fits framework.room ∧
      ∃ symbols table picture, framework.Responds (Endpoint.parseProductions.post body) symbols ∧
        framework.Responds (Endpoint.buildTable.post body) table ∧
        framework.Responds (Endpoint.visualize.post body) picture ∧
          Agree "S" (Gateway.listFields.Fits framework.room) symbols table picture := by
  intro framework body
  have lawful : framework.Lawful := Gateway.lawful_framework 979 980
  let inquiry : framework.Inquiry := .ofBody body (Gateway.fields?_list 979 980)
    (rfl : Gateway.listFields.value "cfg" = .string "S -> a S | eps") (by decide)
    (rfl : Gateway.listFields.value "start_symbol" = .string "S") (by decide)
    (rfl : Gateway.listFields.value "input" = .string "a a") Gateway.driverEnds_listFields
  exact ⟨lawful, Gateway.fits_listFields (by decide), (endpoints_agree lawful inquiry).2⟩

/-! ### Without room -/

/-- A name that is reserved ends the driver before it begins. -/
theorem Fields.driverEnds_of_endOfInput {fields : Fields} (given : fields.value "input" = .string "$")
    {analysis : Analysis} (analyzes : fields.Analyzes analysis)
    (bare : analysis.grammar.terminals = []) : fields.DriverEnds := by
  intro input other same described
  obtain rfl := described.unique analyzes
  obtain rfl : "$" = input := Json.string.inj (given.symm.trans same)
  have tokens : other.table.tokenize? "$" = some [⟨"$", "$", 0⟩] := by
    unfold ParseTable.tokenize?
    rw [show other.table.grammar.terminals = [] from bare]
    decide +kernel
  refine ⟨0, .error (.reservedInput "$"), ?_⟩
  unfold ParseTable.parseText?
  rw [tokens]
  rfl

/-- Room makes a difference: whatever framework the service runs on, there is a chain of rules whose
first name is listed while its table is not built. -/
theorem deep_chains_disagree :
    ¬ ∃ (Body : Type) (framework : Framework Body), framework.Lawful ∧
      ∀ inquiry : framework.Inquiry, ∃ symbols table,
        framework.Responds inquiry.listing symbols ∧ framework.Responds inquiry.building table ∧
          (table.status = 200 ↔ symbols.Lists inquiry.name) := by
  rintro ⟨Body, framework, lawful, claimed⟩
  obtain ⟨text, analysis, made, lacks, bare⟩ := Analysis.exists_ofText_not_fits lawful.bounded
    (rfl : ({ strategy := "recursive" } : GrammarOptions).epsilonAliases = _) rfl rfl
  have nonempty : text ≠ "" := by
    rintro rfl
    rw [Analysis.ofText_empty] at made
    cases made
  let texts := [("cfg", text), ("input", "$"), ("start_symbol", "A"), ("strategy", "recursive")]
  let fields := Fields.ofTexts texts
  have ordered : texts.Pairwise fun left right => left.1 < right.1 := by
    simp only [texts, List.pairwise_cons, List.forall_mem_cons]
    decide
  obtain ⟨body, sent⟩ := lawful.sends texts ordered
  have read : framework.fields? body = some fields := by
    rw [Framework.fields?, sent]
    rfl
  have analyzes : fields.Analyzes analysis := ⟨_, text, rfl, rfl, made⟩
  have cfg : fields.value "cfg" = .string text := rfl
  have start : fields.value "start_symbol" = .string "A" := rfl
  have ends := Fields.driverEnds_of_endOfInput rfl analyzes bare
  obtain ⟨symbols, table, listing, building, agree⟩ :=
    claimed (.ofBody body read cfg nonempty start (by decide) rfl ends)
  -- the name is listed, so its table ought to be built
  obtain ⟨response, told, lists⟩ := lists_iff cfg nonempty rfl "A"
  have same : symbols = response := listing.unique
    ((Framework.asks_post .parseProductions read).responds lawful
      (Endpoint.answers_of_forall fun _ => told))
  have built : table.status = 200 := agree.mpr (same ▸ lists.mpr ⟨analysis, made⟩)
  have failed (limit : Nat) :
      Endpoint.buildTable.respond? framework.room limit fields = some systemError := by
    rw [Endpoint.respond?, buildTable_of_ofText cfg nonempty start (by decide) rfl made,
      if_neg (by simp [lacks])]
  have refused : table = systemError := building.unique
    ((Framework.asks_post .buildTable read).responds lawful (Endpoint.answers_of_forall failed))
  rw [refused] at built
  exact absurd built (by decide)

end Service

end Predictive
