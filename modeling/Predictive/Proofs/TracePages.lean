import Predictive.Html.Trace
import Predictive.Proofs.PageReading
import Mathlib.Data.List.Forall2

/-! The page of a trace. One row is read for each step, and in it the texts of the step, the longest
of them cut to the width of a cell. They are cut before they are escaped, so that whatever the names
are no reference is cut. -/

set_option autoImplicit false

namespace Predictive

open Page

/-- What is shown of a text where a cell holds only so many characters. -/
structure Abridges (width : Int) (text shown : String) : Prop where
  whole : text.length ≤ width → shown = text
  cut : width < text.length →
    shown.toList = text.toList.take (width - 3).toNat ++ ['.', '.', '.']
  fits : shown.length ≤ width

theorem abridges_truncate {width : Int} (wide : 3 ≤ width) (text : String) :
    Abridges width text (truncate width text) := by
  have cut : width < text.length →
      (truncate width text).toList = text.toList.take (width - 3).toNat ++ ['.', '.', '.'] := by
    intro long
    have stop : Text.position text.toList.length (width - 3) = (width - 3).toNat := by
      rw [Text.position, if_neg (by omega), Nat.min_eq_left (by rw [String.length_toList]; omega)]
    have start : Text.position text.toList.length 0 = 0 := by simp [Text.position]
    simp [truncate, long, Text.span, stop, start]
  refine ⟨truncate_of_length_le, cut, ?_⟩
  by_cases long : width < text.length
  · have length := congrArg List.length (cut long)
    rw [String.length_toList, List.length_append, List.length_take, String.length_toList,
      Nat.min_eq_left (by omega)] at length
    simp only [List.length_cons, List.length_nil] at length
    omega
  · rw [truncate_of_length_le (by omega)]
    omega

/-- The reference of a character at the cut is left whole. -/
example : escapeHtml (truncate 5 "a<<<<<<") = "a&lt;..." := by decide

/-- A cell of a class, from which a text is read with none of its references cut off. -/
structure ShowsText (kind text : String) (cell : Element) : Prop where
  kind : kind ∈ cell.classes
  text : unescape cell.text = text
  references : HasWholeReferences cell.text.toList

/-- What an action is called. An expansion is called by the names of what it puts on the stack, from
the left to the right. -/
inductive Action.IsCalled : Action → String → Prop where
  | matched (production : Option Production) : IsCalled ⟨.matched, production⟩ "Matched"
  | epsilon (production : Option Production) : IsCalled ⟨.epsilon, production⟩ "Epsilon"
  | expand (production : Production) :
      IsCalled ⟨.expand, some production⟩ (" ".intercalate (production.rhs.map Symbol.name))
  | bareExpand : IsCalled ⟨.expand, none⟩ "Expand"
  | errorSkip (production : Option Production) : IsCalled ⟨.errorSkip, production⟩ "Error-skip"
  | accept (production : Option Production) : IsCalled ⟨.accept, production⟩ "Accept"
  | stall (production : Option Production) : IsCalled ⟨.stall, production⟩ "Stall"

theorem Action.isCalled_text (action : Action) : action.IsCalled action.text := by
  obtain ⟨kind, production⟩ := action
  cases kind with
  | matched => exact .matched production
  | epsilon => exact .epsilon production
  | expand =>
    cases production with
    | none => exact .bareExpand
    | some production => exact .expand production
  | errorSkip => exact .errorSkip production
  | accept => exact .accept production
  | stall => exact .stall production

/-- A row with the class of the action of a step, and five cells. Names stand in them with single
spaces between: those of what is consumed from the first that was, those of the stack from its bottom,
and those of the input from the next. -/
structure ShowsStep (width : Int) (step : ParseStep) (row : Element) : Prop where
  action : row.attributes =
    [("class", String.ofList (step.action.kind.label.toList.map Char.toLower) ++ "-step")]
  cells : ∃ consumed stack input action,
    Abridges width (" ".intercalate (step.consumed.reverse.map Symbol.name)) consumed ∧
    Abridges width (" ".intercalate (step.stack.reverse.map Symbol.name)) stack ∧
    Abridges width (" ".intercalate (step.remaining.map Symbol.name)) input ∧
    step.action.IsCalled action ∧
    List.Forall₂ (fun expected cell => ShowsText expected.1 expected.2 cell)
      [("step-number", toString step.number), ("consumed", consumed), ("stack", stack),
        ("input", input), ("action", action)]
      row.cells

theorem ActionKind.cssClass_eq (kind : ActionKind) :
    kind.cssClass = String.ofList (kind.label.toList.map Char.toLower) ++ "-step" := by
  cases kind <;> decide

variable (options : DisplayOptions)

def ParseStep.row (step : ParseStep) : Html.Row :=
  let cell (classes text : String) : Html.Line := ⟨"td", [("class", classes)], text⟩
  ⟨[("class", step.action.kind.cssClass)],
    [cell "grammar-table-cell grammar-table-cell-primary step-number" (toString step.number),
      cell "grammar-table-cell consumed" (truncate options.maxCellWidth step.consumedText),
      cell "grammar-table-cell stack" (truncate options.maxCellWidth step.stackText),
      cell "grammar-table-cell input" (truncate options.maxCellWidth step.remainingText),
      cell "grammar-table-cell action" step.action.text]⟩

theorem ParseStep.rowHtml_eq (step : ParseStep) : step.rowHtml options = (step.row options).html :=
  rfl

theorem ParseStep.row_isLegible (step : ParseStep) : (step.row options).IsLegible := by
  have action : ∀ kind : ActionKind, ∀ entry ∈ [("class", kind.cssClass)], IsPlain entry := by
    intro kind
    cases kind <;> decide +kernel
  have plain : ∀ classes ∈ ["grammar-table-cell grammar-table-cell-primary step-number",
      "grammar-table-cell consumed", "grammar-table-cell stack", "grammar-table-cell input",
      "grammar-table-cell action"], ∀ entry ∈ [("class", classes)], IsPlain entry := by
    decide +kernel
  refine ⟨action _, fun cell member => ?_⟩
  simp only [ParseStep.row, List.mem_cons, List.not_mem_nil, or_false] at member
  rcases member with rfl | rfl | rfl | rfl | rfl
  all_goals exact ⟨by simp, plain _ (by simp)⟩

theorem showsText_element {kind classes : String} (found : kind ∈ wordsOf classes) (text : String) :
    ShowsText kind text (Html.Line.element ⟨"td", [("class", classes)], text⟩) where
  kind := found
  text := by rw [Html.Line.element_text, unescape_escapeHtml]
  references := by
    rw [Html.Line.element_text]
    exact hasWholeReferences_escapeHtml text

theorem ParseStep.showsStep_row (wide : 3 ≤ options.maxCellWidth) (step : ParseStep) :
    ShowsStep options.maxCellWidth step (step.row options).element where
  action := by
    rw [← ActionKind.cssClass_eq]
    rfl
  cells := by
    have kinds : "step-number" ∈ wordsOf "grammar-table-cell grammar-table-cell-primary step-number" ∧
        ∀ kind ∈ ["consumed", "stack", "input", "action"],
          kind ∈ wordsOf ("grammar-table-cell " ++ kind) := by decide
    simp only [List.forall_mem_cons] at kinds
    obtain ⟨number, consumed, stack, input, action, -⟩ := kinds
    refine ⟨_, _, _, _, abridges_truncate wide _, abridges_truncate wide _,
      abridges_truncate wide _, step.action.isCalled_text, ?_⟩
    rw [Html.Row.cells_element (step.row_isLegible options)]
    exact .cons (showsText_element number _) <| .cons (showsText_element consumed _) <|
      .cons (showsText_element stack _) <| .cons (showsText_element input _) <|
      .cons (showsText_element action _) .nil

/-- The rows of a table below a title. -/
theorem Html.exists_page_titled_table {classes label : String}
    (plain : IsLegible "table" [("class", "grammar-table " ++ classes), ("role", "table"),
      ("aria-label", label)])
    (attributes : List (String × String)) (title : String) (headings : List String)
    {rows : List Html.Row} (legible : ∀ row ∈ rows, row.IsLegible) :
    ∃ page, (Html.block "div" attributes [.line "h3" [] title,
          .table classes label headings (rows.map Html.Row.html)]).render =
        openTag "div" attributes ++ page ∧
      tableRows page = rows.map Html.Row.element := by
  let opening : List Piece := .char '\n' :: (Html.line "h3" [] title).pieces ++ [.char '\n',
    .opening "table" [("class", "grammar-table " ++ classes), ("role", "table"),
      ("aria-label", label)]]
  let ending : List Piece := [.char '\n', .closing "table", .char '\n', .closing "div"]
  have passed : ∀ piece ∈ opening, piece.Passes ["tbody"] := by
    intro piece member
    simp only [opening, line, pieces, piecesOfAll, List.flatten_cons, List.flatten_nil,
      List.append_nil, List.mem_cons, List.mem_append, List.mem_map, List.not_mem_nil,
      or_false] at member
    rcases member with (rfl | (rfl | ⟨c, -, rfl⟩) | rfl) | rfl | rfl
    all_goals simp [Piece.Passes]
  have inside : LegibleAll [.line "h3" [] title,
      .table classes label headings (rows.map Html.Row.html)] := by
    refine ⟨⟨by decide, trivial, trivial⟩, ?_, trivial⟩
    rw [table_eq]
    exact ⟨plain, legibleAll_table legible headings⟩
  have passedEnding : ∀ piece ∈ ending, piece.Passes ["tbody"] := by simp [Piece.Passes, ending]
  have read := rowsOf_table legible headings passed passedEnding
  refine ⟨_, render_block _ _ _, ?_⟩
  rw [tableRows, pieces_tail (by decide) inside, ← read]
  simp [table_eq, pieces, piecesOfAll, opening, ending]

/-- One row is read for each step, in their order. -/
theorem trace_rows_show_steps (wide : 3 ≤ options.maxCellWidth) (title : String)
    {steps : List ParseStep} (taken : steps ≠ []) :
    ∃ page, (traceHtml options title steps).render =
        Html.openTag "div" [("class", options.traceClasses)] ++ page ∧
      List.Forall₂ (ShowsStep options.maxCellWidth) steps (tableRows page) := by
  have legible : ∀ row ∈ steps.map (ParseStep.row options), row.IsLegible := by
    intro row member
    obtain ⟨step, -, rfl⟩ := List.mem_map.mp member
    exact step.row_isLegible options
  have rows : (steps.map (ParseStep.row options)).map Html.Row.html =
      steps.map (ParseStep.rowHtml options) := by
    rw [List.map_map]
    rfl
  have some : ¬steps.isEmpty = true := by simpa using taken
  have plain : IsLegible "table" [("class", "grammar-table " ++ "trace-table"), ("role", "table"),
      ("aria-label", "Step-by-step parsing trace")] := by decide
  obtain ⟨page, written, read⟩ := Html.exists_page_titled_table plain
    [("class", options.traceClasses)] title ["Step", "Consumed", "Stack", "Input", "Action"] legible
  rw [rows] at written
  refine ⟨page, by rw [traceHtml, if_neg some, written], ?_⟩
  rw [read, List.map_map, List.forall₂_map_right_iff, List.forall₂_same]
  exact fun step _ => step.showsStep_row options wide

theorem trace_rows_show_steps_hostile :
    let options : DisplayOptions := { maxCellWidth := 4 }
    let step : ParseStep :=
      ⟨1, [], [.nonterminal "<a>", .endOfInput], [.terminal "&amp;", .endOfInput], ⟨.stall, none⟩⟩
    3 ≤ options.maxCellWidth ∧ [step] ≠ [] ∧
      ∃ page, (traceHtml options "</h3>" [step]).render =
          Html.openTag "div" [("class", options.traceClasses)] ++ page ∧
        List.Forall₂ (ShowsStep options.maxCellWidth) [step] (tableRows page) := by
  intro options step
  have wide : 3 ≤ options.maxCellWidth := by decide
  have taken : [step] ≠ [] := by simp
  exact ⟨wide, taken, trace_rows_show_steps options wide "</h3>" taken⟩

end Predictive
