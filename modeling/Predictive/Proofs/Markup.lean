import Predictive.Html.Tables
import Predictive.Html.Trace
import Predictive.Html.Messages
import Mathlib.Data.List.Forall2

/-! The markup of pages. Names, messages, descriptions, tokens and titles come from outside, and
stand in a page as escaped text only. So the characters that begin and end tags and attribute
values are those of the page with all its texts left out, and two pages about things of one shape
have the same. -/

set_option autoImplicit false

namespace Predictive

/-- The characters that can begin or end a tag or the value of an attribute. -/
def isMarkup (c : Char) : Bool :=
  c = '<' || c = '>' || c = '"' || c = '\''

/-- The markup characters of a text, in their order. -/
def markup (text : String) : List Char :=
  text.toList.filter isMarkup

/-! ### Texts -/

@[simp] theorem markup_append (left right : String) :
    markup (left ++ right) = markup left ++ markup right := by
  simp [markup]

theorem markup_join (texts : List String) :
    markup (String.join texts) = texts.flatMap markup := by
  unfold markup
  rw [String.toList_join, List.filter_flatMap]

/-- Line breaks are no markup. -/
theorem markup_lines (texts : List String) :
    markup ("\n".intercalate texts) = texts.flatMap markup := by
  induction texts with
  | nil => rfl
  | cons first rest ih =>
    cases rest with
    | nil => simp [markup]
    | cons second rest =>
      have lineBreak : markup "\n" = [] := by decide
      rw [String.intercalate_cons_cons, markup_append, markup_append, ih, lineBreak,
        List.append_nil]
      exact List.flatMap_cons.symm

theorem filter_isMarkup_escapeHtmlChar (c : Char) :
    (escapeHtmlChar "&#x27;" c).filter isMarkup = [] := by
  unfold escapeHtmlChar
  split_ifs with ampersand less greater double single
  · decide
  · decide
  · decide
  · decide
  · decide
  · simp [isMarkup, less, greater, double, single]

/-- An escaped text has no markup, whatever the text. -/
@[simp] theorem markup_escapeHtml (text : String) : markup (escapeHtml text) = [] := by
  unfold markup escapeHtml escapeHtmlWith
  rw [String.toList_ofList, List.filter_flatMap, List.flatMap_eq_nil_iff]
  exact fun c _ => filter_isMarkup_escapeHtmlChar c

/-! ### Trees -/

namespace Html

mutual
/-- A tree with all its texts left out. -/
def skeleton : Html → Html
  | .text _ => .text ""
  | .element tag attributes children => .element tag attributes (skeletons children)
  | .block tag attributes children => .block tag attributes (skeletons children)
  | .raw content => .raw content

def skeletons : List Html → List Html
  | [] => []
  | first :: rest => first.skeleton :: skeletons rest
end

theorem skeletons_eq_map (trees : List Html) : skeletons trees = trees.map skeleton := by
  induction trees with
  | nil => rfl
  | cons first rest ih => simp only [skeletons, ih, List.map_cons]

mutual
/-- The texts of a tree do not matter to its markup. -/
theorem markup_render : ∀ tree : Html, markup tree.render = markup tree.skeleton.render
  | .text content => by simp only [render, skeleton, markup_escapeHtml]
  | .element tag attributes children => by
    simp only [render, skeleton, markup_append, markup_join, markup_renderAll children]
  | .block tag attributes children => by
    simp only [render, skeleton, markup_lines, List.cons_append, List.flatMap_cons,
      List.flatMap_append, markup_renderAll children]
  | .raw content => rfl

theorem markup_renderAll : ∀ trees : List Html,
    (renderAll trees).flatMap markup = (renderAll (skeletons trees)).flatMap markup
  | [] => rfl
  | first :: rest => by
    simp only [renderAll, skeletons, List.flatMap_cons, markup_render first, markup_renderAll rest]
end

@[simp] theorem skeleton_line (tag : String) (attributes : List (String × String))
    (content : String) : (line tag attributes content).skeleton = line tag attributes "" := by
  simp only [line, skeleton, skeletons]

@[simp] theorem skeleton_cell (classes content : String) :
    (cell classes content).skeleton = cell classes "" :=
  skeleton_line _ _ _

@[simp] theorem skeleton_rowHeading (content : String) :
    (rowHeading content).skeleton = rowHeading "" :=
  skeleton_line _ _ _

theorem skeleton_table (classes label : String) (headings : List String) (rows : List Html) :
    (table classes label headings rows).skeleton =
      table classes label (List.replicate headings.length "") (rows.map skeleton) := by
  cases headings with
  | nil => simp [table, skeleton, skeletons, skeletons_eq_map]
  | cons first rest =>
    simp [table, skeleton, skeletons, skeletons_eq_map, Function.comp_def, List.replicate_succ]

theorem markup_render_congr {left right : Html} (same : left.skeleton = right.skeleton) :
    markup left.render = markup right.render := by
  rw [markup_render left, same, ← markup_render right]

theorem markup_renderLines_congr {left right : List Html} (same : skeletons left = skeletons right) :
    markup (renderLines left) = markup (renderLines right) := by
  unfold renderLines
  rw [markup_lines, markup_lines, markup_renderAll left, same, ← markup_renderAll right]

/-- Trees that have one skeleton place by place. -/
theorem map_skeleton_congr {Left Right : Type} {alike : Left → Right → Prop}
    {lefts : List Left} {rights : List Right} (left : Left → Html) (right : Right → Html)
    (shape : List.Forall₂ alike lefts rights)
    (same : ∀ first second, alike first second → (left first).skeleton = (right second).skeleton) :
    (lefts.map left).map skeleton = (rights.map right).map skeleton := by
  induction shape with
  | nil => rfl
  | cons first rest ih => simp only [List.map_cons, same _ _ first, ih]

/-- As `map_skeleton_congr`, where making a tree can fail. -/
theorem map_skeleton_congr_of_mapM {Left Right : Type} {alike : Left → Right → Prop}
    {lefts : List Left} {rights : List Right} {left : Left → Except Error Html}
    {right : Right → Except Error Html} {trees others : List Html}
    (shape : List.Forall₂ alike lefts rights) (made : lefts.mapM left = .ok trees)
    (made_others : rights.mapM right = .ok others)
    (same : ∀ first second, alike first second → ∀ tree other, left first = .ok tree →
      right second = .ok other → tree.skeleton = other.skeleton) :
    trees.map skeleton = others.map skeleton := by
  induction shape generalizing trees others with
  | nil =>
    cases made
    cases made_others
    rfl
  | cons first rest ih =>
    rw [List.mapM_cons] at made made_others
    obtain ⟨tree, one, made⟩ := exists_of_bind_eq_ok made
    obtain ⟨later, more, made⟩ := exists_of_bind_eq_ok made
    obtain ⟨other, another, made_others⟩ := exists_of_bind_eq_ok made_others
    obtain ⟨behind, rest, made_others⟩ := exists_of_bind_eq_ok made_others
    cases made
    cases made_others
    rw [List.map_cons, List.map_cons, same _ _ first _ _ one another, ih more rest]

end Html

/-! ### Shapes -/

theorem isEmpty_congr {Left Right : Type} {left : List Left} {right : List Right}
    (same : left.length = right.length) : left.isEmpty = right.isEmpty := by
  rw [Bool.eq_iff_iff, List.isEmpty_iff_length_eq_zero, List.isEmpty_iff_length_eq_zero, same]

/-- Tables with as many rows and columns, in which the same places are in conflict. What stands in a
place is text. -/
structure ParseTable.SameShape (left right : ParseTable) : Prop where
  columns : left.columns.length = right.columns.length
  conflicts : List.Forall₂
    (fun row other => List.Forall₂
      (fun column another => left.isConflicted row column = right.isConflicted other another)
      left.columns right.columns)
    left.grammar.nonTerminals right.grammar.nonTerminals

variable (options : DisplayOptions)

section
variable {left right : ParseTable} {options}

theorem ParseTable.skeleton_cellHtml {nonterminal other lookahead another : Symbol} {one two : Html}
    (same : left.isConflicted nonterminal lookahead = right.isConflicted other another)
    (made : left.cellHtml options nonterminal lookahead = .ok one)
    (made_other : right.cellHtml options other another = .ok two) : one.skeleton = two.skeleton := by
  obtain ⟨text, _, made⟩ := exists_of_bind_eq_ok made
  obtain ⟨words, _, made_other⟩ := exists_of_bind_eq_ok made_other
  cases made
  cases made_other
  rw [Html.skeleton_cell, Html.skeleton_cell, same]

theorem ParseTable.skeleton_rowHtml {nonterminal other : Symbol} {one two : Html}
    (places : List.Forall₂
      (fun column another => left.isConflicted nonterminal column = right.isConflicted other another)
      left.columns right.columns)
    (made : left.rowHtml options nonterminal = .ok one)
    (made_other : right.rowHtml options other = .ok two) : one.skeleton = two.skeleton := by
  obtain ⟨cells, filled, made⟩ := exists_of_bind_eq_ok made
  obtain ⟨others, filled_others, made_other⟩ := exists_of_bind_eq_ok made_other
  cases made
  cases made_other
  have cells_alike := Html.map_skeleton_congr_of_mapM places filled filled_others
    fun _ _ same _ _ => skeleton_cellHtml same
  simp only [Html.skeleton, Html.skeletons_eq_map, List.map_cons, Html.skeleton_rowHeading,
    cells_alike]

theorem ParseTable.SameShape.skeleton_html (shape : left.SameShape right) {one two : Html}
    (made : left.html options = .ok one) (made_other : right.html options = .ok two) :
    one.skeleton = two.skeleton := by
  obtain ⟨rows, filled, made⟩ := exists_of_bind_eq_ok made
  obtain ⟨others, filled_others, made_other⟩ := exists_of_bind_eq_ok made_other
  cases made
  cases made_other
  have rows_alike := Html.map_skeleton_congr_of_mapM shape.conflicts filled filled_others
    fun _ _ places _ _ => skeleton_rowHtml places
  rw [Html.skeleton_table, Html.skeleton_table, rows_alike]
  simp only [List.length_cons, List.length_map, shape.columns]

end

theorem Analysis.skeleton_setsHtml {left right : Analysis}
    (rows : left.grammar.nonTerminals.length = right.grammar.nonTerminals.length) :
    left.setsHtml.skeleton = right.setsHtml.skeleton := by
  have blank (analysis : Analysis) (nonterminal : Symbol) :
      (analysis.setsRow nonterminal).skeleton =
        .block "tr" [] [.rowHeading "", .cell "grammar-table-cell" "",
          .cell "grammar-table-cell" ""] := by
    simp only [Analysis.setsRow, Html.skeleton, Html.skeletons, Html.skeleton_rowHeading,
      Html.skeleton_cell]
  unfold Analysis.setsHtml
  simp only [Html.skeleton_table, List.map_map, Function.comp_def, blank, List.map_const', rows]

theorem Grammar.skeleton_productionsHtml {left right : Grammar}
    (ids : left.productions.map Production.id = right.productions.map Production.id) :
    left.productionsHtml.skeleton = right.productionsHtml.skeleton := by
  have blank (grammar : Grammar) : grammar.productionsHtml.skeleton =
      .block "ol" [("class", "production-list")]
        ((grammar.productions.map Production.id).map fun id =>
          .line "li" [("value", toString id)] "") := by
    simp [Grammar.productionsHtml, Html.skeleton, Html.skeletons_eq_map, Function.comp_def]
  rw [blank, blank, ids]

/-- Traces with as many steps, of which the same actions were taken. -/
def SameActions : List ParseStep → List ParseStep → Prop :=
  List.Forall₂ fun left right => left.action.kind = right.action.kind

theorem skeleton_traceHtml {left right : List ParseStep} (shape : SameActions left right)
    (title other : String) :
    (traceHtml options title left).skeleton = (traceHtml options other right).skeleton := by
  have rows := Html.map_skeleton_congr (ParseStep.rowHtml options)
    (ParseStep.rowHtml options) shape ?_
  · unfold traceHtml
    rw [isEmpty_congr shape.length_eq]
    split
    · rfl
    · simp only [Html.skeleton, Html.skeletons, Html.skeleton_line, Html.skeleton_table, rows]
  · intro step other kind
    simp only [ParseStep.rowHtml, Html.skeleton, Html.skeletons, Html.skeleton_cell, kind]

/-- Lists with as many conflicts, of which the same are not described. -/
def SameConflicts : List Conflict → List Conflict → Prop :=
  List.Forall₂ fun left right => left.description.isEmpty = right.description.isEmpty

@[simp] theorem Html.skeleton_labelled (label text : String) :
    (labelled label text).skeleton = .element "p" [] [.line "strong" [] "", .text ""] := by
  simp only [labelled, skeleton, skeletons, skeleton_line]

/-- The same styles stand before messages of the same skeleton. -/
theorem skeletons_styled {left right : Html} (same : left.skeleton = right.skeleton) :
    Html.skeletons (styled options left) = Html.skeletons (styled options right) := by
  unfold styled
  split <;> simp only [Html.skeletons, same]

theorem skeleton_zipIdx_html {left right : List Conflict} (shape : SameConflicts left right)
    (number : Nat) :
    ((left.zipIdx number).map fun (conflict, number) => (conflict.html number).skeleton) =
      (right.zipIdx number).map fun (conflict, number) => (conflict.html number).skeleton := by
  induction shape generalizing number with
  | nil => rfl
  | cons first rest ih =>
    simp only [List.zipIdx_cons, List.map_cons, ih, List.cons.injEq, and_true]
    unfold Conflict.html
    rw [first]
    split <;> simp [Html.skeleton, Html.skeletons]

theorem skeletons_conflictsHtml {left right : List Conflict} (shape : SameConflicts left right) :
    Html.skeletons (conflictsHtml options left) = Html.skeletons (conflictsHtml options right) := by
  have items := skeleton_zipIdx_html shape 1
  unfold conflictsHtml
  rw [isEmpty_congr shape.length_eq]
  split
  · rfl
  · apply skeletons_styled
    simp [Html.skeleton, Html.skeletons_eq_map, Function.comp_def, items]

theorem ParseResult.skeleton_verdictHtml {left right : ParseResult}
    (verdict : left.verdict = right.verdict) (issues : left.issues.length = right.issues.length) :
    left.verdictHtml.skeleton = right.verdictHtml.skeleton := by
  unfold ParseResult.verdictHtml
  rw [verdict, isEmpty_congr issues]
  split <;>
    simp [Html.skeleton, Html.skeletons_eq_map, ParseIssue.html, Function.comp_def, issues]

theorem skeleton_contextHtml {left right : List String} (tokens : left.length = right.length)
    (position context : Int) :
    (contextHtml left position context).skeleton = (contextHtml right position context).skeleton := by
  unfold contextHtml
  rw [tokens]
  simp only [Html.skeleton, Html.skeletons_eq_map, List.map_append, List.map_cons, List.map_nil,
    Html.skeleton_line]

theorem skeletons_errorHtml {left right : List String} (tokens : left.length = right.length)
    (message other : String) (position context : Int) :
    Html.skeletons (errorHtml options message position left context) =
      Html.skeletons (errorHtml options other position right context) := by
  have around := skeleton_contextHtml tokens position context
  apply skeletons_styled
  rw [isEmpty_congr tokens]
  split <;>
    simp only [Html.skeleton, Html.skeletons_eq_map, List.map_append, List.map_cons, List.map_nil,
      Html.skeleton_line, around]

/-! ### Pages -/

/-- Whatever the names, messages, descriptions, tokens and titles are, pages about things of one
shape have the same markup. A table has a page if its cells name productions or only show ids. -/
theorem user_text_keeps_markup :
    (∀ table : ParseTable, options.showIds = true ∨ table.Named →
      ∃ page, table.html options = .ok page) ∧
    (∀ left right : ParseTable, left.SameShape right → ∀ page other,
      left.html options = .ok page → right.html options = .ok other →
      markup page.render = markup other.render) ∧
    (∀ left right : Analysis,
      left.grammar.nonTerminals.length = right.grammar.nonTerminals.length →
      markup left.setsHtml.render = markup right.setsHtml.render) ∧
    (∀ left right : Grammar,
      left.productions.map Production.id = right.productions.map Production.id →
      markup left.productionsHtml.render = markup right.productionsHtml.render) ∧
    (∀ left right : List ParseStep, SameActions left right → ∀ title other : String,
      markup (traceHtml options title left).render =
        markup (traceHtml options other right).render) ∧
    (∀ left right : List Conflict, SameConflicts left right →
      markup (Html.renderLines (conflictsHtml options left)) =
        markup (Html.renderLines (conflictsHtml options right))) ∧
    (∀ left right : ParseResult, left.verdict = right.verdict →
      left.issues.length = right.issues.length →
      markup left.verdictHtml.render = markup right.verdictHtml.render) ∧
    ∀ left right : List String, left.length = right.length →
      ∀ (message other : String) (position context : Int),
        markup (Html.renderLines (errorHtml options message position left context)) =
          markup (Html.renderLines (errorHtml options other position right context)) := by
  refine ⟨fun _ => ParseTable.exists_html, ?table, ?sets, ?productions, ?trace, ?conflicts, ?verdict,
    ?error⟩
  case table =>
    intro left right shape page other made made_other
    exact Html.markup_render_congr (shape.skeleton_html made made_other)
  case sets =>
    intro left right rows
    exact Html.markup_render_congr (Analysis.skeleton_setsHtml rows)
  case productions =>
    intro left right ids
    exact Html.markup_render_congr (Grammar.skeleton_productionsHtml ids)
  case trace =>
    intro left right shape title other
    exact Html.markup_render_congr (skeleton_traceHtml options shape title other)
  case conflicts =>
    intro left right shape
    exact Html.markup_renderLines_congr (skeletons_conflictsHtml options shape)
  case verdict =>
    intro left right verdict issues
    exact Html.markup_render_congr (ParseResult.skeleton_verdictHtml verdict issues)
  case error =>
    intro left right tokens message other position context
    exact Html.markup_renderLines_congr
      (skeletons_errorHtml options tokens message other position context)

/-- A grammar of plain names. -/
def plainSample : Grammar where
  productions :=
    [⟨1, .nonterminal "S", [.terminal "a", .nonterminal "S"]⟩, ⟨2, .nonterminal "S", [.terminal "b"]⟩]
  start := .nonterminal "S"
  sound := by decide

/-- The same grammar, in names that would be tags and attributes. -/
def hostileSample : Grammar where
  productions :=
    [⟨1, .nonterminal "</td>", [.terminal "\" onclick='", .nonterminal "</td>"]⟩,
     ⟨2, .nonterminal "</td>", [.terminal "<b>"]⟩]
  start := .nonterminal "</td>"
  sound := by decide

/-- A table of a grammar with one filled cell, which another production was refused. -/
def disputedTable (grammar : Grammar) (lookahead : Symbol) (description : String) : ParseTable :=
  ⟨grammar, [⟨grammar.start, lookahead, 1⟩], [⟨grammar.start, lookahead, 1, 2, description⟩]⟩

theorem named_disputedTable {grammar : Grammar}
    (declared : ∃ production ∈ grammar.productions, production.id = 1) (lookahead : Symbol)
    (description : String) : (disputedTable grammar lookahead description).Named := by
  intro nonterminal column id filled
  obtain ⟨cell, found, rfl⟩ := Option.map_eq_some_iff.mp filled
  obtain rfl := List.mem_singleton.mp (List.mem_of_find?_eq_some found)
  exact declared

theorem user_text_keeps_markup_hostile :
    let options : DisplayOptions := { maxCellWidth := 4 }
    let plain := disputedTable plainSample (.terminal "a") "first"
    let hostile := disputedTable hostileSample (.terminal "\" onclick='") "<script>"
    let step (name : String) : ParseStep := ⟨1, [], [.nonterminal name], [.endOfInput], ⟨.stall, none⟩⟩
    let issue (message : String) : ParseIssue := ⟨1, 0, .endOfInput, .endOfInput, [], message⟩
    (∃ page other, plain.html options = .ok page ∧ hostile.html options = .ok other ∧
      markup page.render = markup other.render) ∧
      markup (Analysis.new plainSample .fixedPoint).setsHtml.render =
        markup (Analysis.new hostileSample .recursive).setsHtml.render ∧
      markup plainSample.productionsHtml.render = markup hostileSample.productionsHtml.render ∧
      markup (traceHtml options "Trace" [step "S"]).render =
        markup (traceHtml options "</h3>" [step "</td>"]).render ∧
      markup (Html.renderLines (conflictsHtml options plain.conflicts)) =
        markup (Html.renderLines (conflictsHtml options hostile.conflicts)) ∧
      markup (ParseResult.verdictHtml ⟨.reject, [step "S"], [issue "missing"]⟩).render =
        markup (ParseResult.verdictHtml ⟨.reject, [step "</td>"], [issue "</li>"]⟩).render ∧
      markup (Html.renderLines (errorHtml options "missing" 1 ["a", "b"] 5)) =
        markup (Html.renderLines (errorHtml options "</p>" 1 ["<b>", "\""] 5)) := by
  intro options plain hostile step issue
  obtain ⟨ends, table, sets, productions, trace, conflicts, verdict, error⟩ :=
    user_text_keeps_markup options
  have grid : plain.SameShape hostile := ⟨by decide, by decide⟩
  have rows : (Analysis.new plainSample .fixedPoint).grammar.nonTerminals.length =
      (Analysis.new hostileSample .recursive).grammar.nonTerminals.length := by decide +kernel
  have actions : SameActions [step "S"] [step "</td>"] := .cons rfl .nil
  have described : SameConflicts plain.conflicts hostile.conflicts := .cons (by decide) .nil
  obtain ⟨page, made⟩ := ends plain (.inr (named_disputedTable (by decide) _ _))
  obtain ⟨other, made_other⟩ := ends hostile (.inr (named_disputedTable (by decide) _ _))
  exact ⟨⟨page, other, made, made_other, table plain hostile grid page other made made_other⟩,
    sets _ _ rows, productions _ _ (by decide),
    trace _ _ actions "Trace" "</h3>", conflicts _ _ described,
    verdict ⟨.reject, [step "S"], [issue "missing"]⟩ ⟨.reject, [step "</td>"], [issue "</li>"]⟩ rfl rfl,
    error ["a", "b"] ["<b>", "\""] rfl "missing" "</p>" 1 5⟩

end Predictive
