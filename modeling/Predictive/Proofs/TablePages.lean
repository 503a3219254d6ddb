import Predictive.Html.Tables
import Predictive.Proofs.PageReading
import Predictive.Proofs.ReportedConflicts
import Predictive.Proofs.RuleLists
import Predictive.Proofs.Strategies

/-! The page of a parse table. Its rows are read as the non-terminals and their cells as the
terminals and the end of input. All lookaheads that sets hold are among these where a grammar comes
from rules, so each entry of the table has one place on the page, and what is read there is what the
table holds. -/

set_option autoImplicit false

namespace Predictive

/-! ### Entries -/

namespace Cell

variable {cells : List Cell} {nonterminal lookahead : Symbol} {id : Int}

def place (cell : Cell) : Symbol × Symbol :=
  (cell.nonterminal, cell.lookahead)

theorem isAt_iff {cell : Cell} :
    cell.isAt nonterminal lookahead = true ↔ cell.place = (nonterminal, lookahead) := by
  simp [isAt, place]

theorem lookup?_eq_none :
    lookup? cells nonterminal lookahead = none ↔ (nonterminal, lookahead) ∉ cells.map place := by
  simp [lookup?, List.find?_eq_none, isAt_iff]

/-- Where no two cells share a place, what is found there is the only entry. -/
theorem lookup?_eq_some (distinct : (cells.map place).Nodup) :
    lookup? cells nonterminal lookahead = some id ↔ ⟨nonterminal, lookahead, id⟩ ∈ cells := by
  constructor
  · intro found
    obtain ⟨cell, first, rfl⟩ := Option.map_eq_some_iff.mp found
    obtain ⟨rfl, rfl⟩ : cell.nonterminal = nonterminal ∧ cell.lookahead = lookahead := by
      simpa [isAt] using List.find?_some first
    exact List.mem_of_find?_eq_some first
  · intro entered
    cases found : lookup? cells nonterminal lookahead with
    | none => exact absurd (List.mem_map_of_mem entered) (lookup?_eq_none.mp found)
    | some other =>
      obtain ⟨cell, first, rfl⟩ := Option.map_eq_some_iff.mp found
      have same : cell = ⟨nonterminal, lookahead, id⟩ :=
        List.inj_on_of_nodup_map distinct (List.mem_of_find?_eq_some first) entered
          (isAt_iff.mp (List.find?_some first))
      rw [same]

end Cell

namespace Filling

variable {grammar : Grammar} {filling : Filling} {production : Production} {lookahead : Symbol}

theorem places_nodup_enter (distinct : (filling.cells.map Cell.place).Nodup) :
    ((filling.enter grammar production lookahead).cells.map Cell.place).Nodup := by
  unfold enter
  cases held : Cell.lookup? filling.cells production.lhs lookahead with
  | none =>
    rw [List.map_append, List.nodup_append_comm]
    exact List.nodup_cons.mpr ⟨Cell.lookup?_eq_none.mp held, distinct⟩
  | some kept =>
    dsimp only
    split <;> exact distinct

theorem places_nodup_predict (distinct : (filling.cells.map Cell.place).Nodup)
    (predictions : List Prediction) :
    ((filling.predict grammar predictions).cells.map Cell.place).Nodup := by
  induction predictions generalizing filling with
  | nil => exact distinct
  | cons first rest ih => exact ih (places_nodup_enter distinct)

end Filling

namespace Grammar

variable {grammar : Grammar} {strategy : Strategy} {nonterminal lookahead : Symbol}

theorem at?_parseTable_iff_mem {id : Int} :
    (grammar.parseTable strategy).at? nonterminal lookahead = some id ↔
      ⟨nonterminal, lookahead, id⟩ ∈ (grammar.parseTable strategy).cells :=
  Cell.lookup?_eq_some (Filling.places_nodup_predict (by simp) _)

/-! ### Places -/

/-- What a production is entered for, under either strategy, is written in some right-hand side or
is the end of input. -/
theorem mem_followRange_of_mem_lookaheadsOf {production : Production}
    (declared : production ∈ grammar.productions)
    (predicted : lookahead ∈ grammar.lookaheadsOf (grammar.firstSets strategy)
      (grammar.followAssignment strategy) production) : lookahead ∈ grammar.followRange := by
  have first_below : (grammar.firstSets strategy).Below grammar.firstByPasses := by
    cases strategy with
    | fixedPoint => exact fun _ _ member => member
    | recursive => exact firstByRecursion_below
  have follow_below : (grammar.followAssignment strategy).Below
      (grammar.followAssignment .fixedPoint) := by
    cases strategy with
    | fixedPoint => exact fun _ _ member => member
    | recursive => exact followAssignment_recursive_below
  rcases mem_lookaheadsOf.mp predicted with ⟨leading, visible⟩ | ⟨_, behind⟩
  · have range := grammar.firstOfSequence_within grammar.firstByPasses_within
      (fun other written leaf => grammar.mem_rhsLeaves.mpr ⟨⟨production, declared, written⟩, leaf⟩)
      (firstOfSequence_mono first_below leading)
    have leaf : lookahead ∈ grammar.rhsLeaves := by simpa [firstRange, visible] using range
    exact List.mem_append_left _ leaf
  · exact mem_followRange_of_followAssignment (follow_below _ _ behind)

section
variable {rules : List Rule} {start : Option String} {policy : NamePolicy}
  (built : ofRules rules start policy = .ok grammar)
include built

/-- In rules, a name that is neither that of a non-terminal nor the empty string is a terminal. -/
theorem mem_terminals_of_mem_rhsLeaves {symbol : Symbol} (member : symbol ∈ grammar.rhsLeaves) :
    symbol ∈ grammar.terminals := by
  obtain ⟨other, again, productions, -⟩ := ofRules_of_fit (fit_of_ofRules built)
  obtain rfl : other = grammar := Except.ok.inj (again.symm.trans built)
  obtain ⟨⟨production, declared, written⟩, leaf, visible⟩ := mem_rhsLeaves _ |>.mp member
  rw [productions] at declared
  have kind : symbol.isTerminal = true := by
    rcases Rule.symbol_of_mem_numbered declared written with rfl | ⟨name, _, rfl⟩ | ⟨name, _, rfl⟩
    · exact absurd rfl visible
    · cases leaf
    · rfl
  rw [mem_terminals_iff, productions]
  exact List.mem_filter.mpr ⟨List.mem_flatMap.mpr ⟨production, declared, written⟩, kind⟩

/-- A filled cell stands in the row of a non-terminal, below a terminal or the end of input. -/
theorem mem_of_at?_parseTable {id : Int}
    (filled : (grammar.parseTable strategy).at? nonterminal lookahead = some id) :
    nonterminal ∈ grammar.nonTerminals ∧ lookahead ∈ grammar.lookaheads := by
  obtain ⟨production, declared, -, rfl, predicted⟩ := exists_of_at?_parseTable filled
  refine ⟨lhs_mem_nonTerminals declared, ?_⟩
  rcases List.mem_append.mp (mem_followRange_of_mem_lookaheadsOf declared predicted) with
    leaf | ending
  · exact List.mem_append_left _ (mem_terminals_of_mem_rhsLeaves built leaf)
  · exact List.mem_append_right _ ending

end

/-- The row and the column of a cell, both counted from zero. -/
def IsPlace (grammar : Grammar) (nonterminal lookahead : Symbol) (place : Nat × Nat) : Prop :=
  grammar.nonTerminals[place.1]? = some nonterminal ∧ grammar.lookaheads[place.2]? = some lookahead

theorem lookaheads_nodup (grammar : Grammar) : grammar.lookaheads.Nodup := by
  have apart : Symbol.endOfInput ∉ grammar.terminals := by
    intro member
    have kind := (List.mem_filter.mp (mem_terminals_iff.mp member)).2
    cases kind
  rw [lookaheads, List.nodup_append_comm]
  exact List.nodup_cons.mpr ⟨apart, (firstAppearances_eraseDups _).nodup⟩

theorem existsUnique_place (row : nonterminal ∈ grammar.nonTerminals)
    (column : lookahead ∈ grammar.lookaheads) :
    ∃! place, grammar.IsPlace nonterminal lookahead place := by
  have rows : grammar.nonTerminals.Nodup := (firstAppearances_eraseDups _).nodup
  obtain ⟨i, inRows, rfl⟩ := List.mem_iff_getElem.mp row
  obtain ⟨j, inColumns, rfl⟩ := List.mem_iff_getElem.mp column
  refine ⟨(i, j), ⟨List.getElem?_eq_getElem inRows, List.getElem?_eq_getElem inColumns⟩, ?_⟩
  rintro ⟨row, column⟩ ⟨sameRow, sameColumn⟩
  rw [List.getElem?_eq_some_iff] at sameRow sameColumn
  obtain ⟨inside, sameRow⟩ := sameRow
  obtain ⟨within, sameColumn⟩ := sameColumn
  rw [rows.getElem_inj_iff] at sameRow
  rw [grammar.lookaheads_nodup.getElem_inj_iff] at sameColumn
  exact Prod.ext sameRow sameColumn

end Grammar

/-! ### Texts of cells -/

theorem escapeHtml_eq_self {text : String} (plain : ∀ c ∈ text.toList, c ∉ ['&', '<', '>', '"', '\'']) :
    escapeHtml text = text := by
  have same : ∀ c ∈ text.toList, escapeHtmlChar "&#x27;" c = [c] := by
    intro c member
    have outside := plain c member
    simp_all [escapeHtmlChar]
  rw [escapeHtml, escapeHtmlWith, List.flatMap_congr same, List.flatMap_singleton',
    String.ofList_toList]

/-- The digits of a number and its sign are written as they are. -/
theorem escapeHtml_toString (id : Int) : escapeHtml (toString id) = toString id := by
  have digits : ∀ c : Char, c.isDigit = true ∨ c = '-' → c ∉ ['&', '<', '>', '"', '\''] := by
    rintro c (digit | rfl) member
    · simp only [List.mem_cons, List.not_mem_nil, or_false] at member
      rcases member with rfl | rfl | rfl | rfl | rfl <;> exact absurd digit (by decide)
    · exact absurd member (by decide)
  have natural : ∀ number : Nat, ∀ c ∈ number.repr.toList, c.isDigit = true := by
    intro number c member
    rw [Nat.repr, String.toList_ofList] at member
    exact Nat.isDigit_of_mem_toDigits (by decide) (by decide) member
  refine escapeHtml_eq_self fun c member => digits c ?_
  rw [Int.toString_eq_repr, Int.repr_eq_if] at member
  split at member
  · exact .inl (natural _ c member)
  · rw [String.toList_append, List.mem_append] at member
    rcases member with sign | digit
    · exact .inr (by simpa using sign)
    · exact .inl (natural _ c digit)

theorem toString_ne_empty (id : Int) : toString id ≠ "" := by
  rw [Int.toString_eq_repr, Int.repr_eq_if]
  split
  · exact Nat.repr_ne_empty
  · simp

theorem escapeHtml_eq_empty {text : String} : escapeHtml text = "" ↔ text = "" := by
  constructor
  · intro empty
    rw [← Page.unescape_escapeHtml text, empty]
    rfl
  · rintro rfl
    rfl

theorem Production.text_ne_empty (production : Production) : production.text ≠ "" := by
  simp [Production.text]

namespace ParseTable

open Page

/-- The columns whose cells are not empty. -/
def filledColumns : List Symbol → List Element → List Symbol
  | column :: columns, cell :: cells =>
    if cell.text = "" then filledColumns columns cells else column :: filledColumns columns cells
  | _, _ => []

/-- A cell from which is read what a table holds at a place. -/
structure ShowsCell (options : DisplayOptions) (table : ParseTable) (nonterminal lookahead : Symbol)
    (cell : Element) : Prop where
  tag : cell.tag = "td"
  empty : cell.text = "" ↔ table.get? (.exact nonterminal) (.exact lookahead) = none
  filled : ∀ id, table.get? (.exact nonterminal) (.exact lookahead) = some id →
    ∃ production, table.grammar.production id = .ok production ∧
      cell.text = if options.showIds then toString id else escapeHtml production.text
  conflicted : "conflict-cell" ∈ cell.classes ↔
    ∃ conflict ∈ table.conflicts,
      conflict.nonterminal = nonterminal ∧ conflict.lookahead = lookahead

/-- A heading and the cells behind it, from which is read what a table holds for a non-terminal. -/
structure ShowsRow (options : DisplayOptions) (table : ParseTable) (nonterminal : Symbol)
    (heading : Element) (cells : List Element) : Prop where
  tag : heading.tag = "th"
  heading : heading.text = escapeHtml nonterminal.name
  shown : List.Forall₂ (table.ShowsCell options nonterminal)
    (table.grammar.terminals ++ [Symbol.endOfInput]) cells
  expected : table.expected (.exact nonterminal) =
    .ok (filledColumns (table.grammar.terminals ++ [Symbol.endOfInput]) cells)

/-- What is read in a cell of a table of which each filled cell names a production. -/
def shownText (options : DisplayOptions) (table : ParseTable) (nonterminal lookahead : Symbol) :
    String :=
  (table.cellText options nonterminal lookahead).toOption.getD ""

def cellLine (options : DisplayOptions) (table : ParseTable) (nonterminal lookahead : Symbol) :
    Html.Line :=
  ⟨"td", [("class",
    if table.isConflicted nonterminal lookahead then "grammar-table-cell conflict-cell"
    else "grammar-table-cell")], table.shownText options nonterminal lookahead⟩

def pageRow (options : DisplayOptions) (table : ParseTable) (nonterminal : Symbol) : Html.Row :=
  ⟨[], ⟨"th", [("class", "grammar-table-cell grammar-table-cell-primary"), ("scope", "row")],
      nonterminal.name⟩ ::
    table.columns.map (table.cellLine options nonterminal)⟩

variable {table : ParseTable} {options : DisplayOptions} {nonterminal lookahead : Symbol}

theorem rowHtml_eq (named : table.Named) :
    table.rowHtml options nonterminal = .ok (table.pageRow options nonterminal).html := by
  have cells (lookahead : Symbol) : table.cellHtml options nonterminal lookahead =
      .ok (table.cellLine options nonterminal lookahead).html := by
    have known : options.showIds = true ∨ table.Named := .inr named
    obtain ⟨text, shown⟩ := exists_cellText known nonterminal lookahead
    rw [cellHtml, cellLine, shownText, shown]
    rfl
  rw [rowHtml, mapM_eq_ok fun lookahead _ => cells lookahead, pageRow, Html.Row.html, List.map_cons,
    List.map_map]
  rfl

theorem pageRow_isLegible : (table.pageRow options nonterminal).IsLegible := by
  have heading : ∀ entry ∈ [("class", "grammar-table-cell grammar-table-cell-primary"),
      ("scope", "row")], IsPlain entry := by decide
  have plain : ∀ classes ∈ ["grammar-table-cell conflict-cell", "grammar-table-cell"],
      ∀ entry ∈ [("class", classes)], IsPlain entry := by decide +kernel
  refine ⟨by simp [pageRow], fun cell member => ?_⟩
  rcases List.mem_cons.mp member with rfl | member
  · exact ⟨by simp, heading⟩
  · obtain ⟨lookahead, -, rfl⟩ := List.mem_map.mp member
    refine ⟨by simp [cellLine], plain _ ?_⟩
    split <;> simp

theorem isConflicted_iff : table.isConflicted nonterminal lookahead = true ↔
    ∃ conflict ∈ table.conflicts,
      conflict.nonterminal = nonterminal ∧ conflict.lookahead = lookahead := by
  simp [isConflicted]

theorem shownText_filled (options : DisplayOptions) (named : table.Named) {id : Int}
    (filled : table.at? nonterminal lookahead = some id) :
    ∃ production, table.grammar.production id = .ok production ∧
      table.shownText options nonterminal lookahead =
        if options.showIds then toString id else production.text := by
  obtain ⟨production, declared, same⟩ := named nonterminal lookahead id filled
  have known : table.grammar.production id = .ok production := by
    rw [Grammar.production, Grammar.production?_eq_some.mpr ⟨declared, same⟩]
  refine ⟨production, known, ?_⟩
  rw [shownText, cellText, filled]
  dsimp only
  split
  · rfl
  · rw [known]
    rfl

theorem shownText_eq_empty (named : table.Named) :
    table.shownText options nonterminal lookahead = "" ↔
      table.at? nonterminal lookahead = none := by
  cases filled : table.at? nonterminal lookahead with
  | none => simp [shownText, cellText, filled, Except.toOption]
  | some id =>
    obtain ⟨production, -, text⟩ := shownText_filled options named filled
    have some : table.shownText options nonterminal lookahead ≠ "" := by
      rw [text]
      split
      · exact toString_ne_empty id
      · exact production.text_ne_empty
    simp only [some, reduceCtorEq]

theorem showsCell_element (named : table.Named) :
    table.ShowsCell options nonterminal lookahead
      (table.cellLine options nonterminal lookahead).element where
  tag := rfl
  empty := by
    rw [Html.Line.element_text, escapeHtml_eq_empty]
    exact shownText_eq_empty named
  filled := by
    intro id filled
    obtain ⟨production, known, text⟩ := shownText_filled options named filled
    refine ⟨production, known, ?_⟩
    rw [Html.Line.element_text]
    change escapeHtml (table.shownText options nonterminal lookahead) = _
    rw [text, apply_ite escapeHtml, escapeHtml_toString]
  conflicted := by
    rw [← isConflicted_iff]
    have marked : "conflict-cell" ∈ wordsOf "grammar-table-cell conflict-cell" := by decide
    have unmarked : "conflict-cell" ∉ wordsOf "grammar-table-cell" := by decide
    change "conflict-cell" ∈ wordsOf (if table.isConflicted nonterminal lookahead then _ else _) ↔ _
    cases table.isConflicted nonterminal lookahead with
    | true => exact iff_of_true marked rfl
    | false => exact iff_of_false unmarked (by simp)

theorem filledColumns_eq {columns : List Symbol} {cells : List Element}
    (shown : List.Forall₂ (table.ShowsCell options nonterminal) columns cells) :
    filledColumns columns cells =
      (columns.filterMap fun lookahead =>
        (table.at? nonterminal lookahead).map fun id => (lookahead, id)).map Prod.fst := by
  induction shown with
  | nil => rfl
  | @cons lookahead cell columns cells first rest ih =>
    have empty : cell.text = "" ↔ table.at? nonterminal lookahead = none := first.empty
    rw [filledColumns, List.filterMap_cons]
    cases filled : table.at? nonterminal lookahead with
    | none => rw [if_pos (empty.mpr filled), ih, Option.map_none]
    | some id =>
      have full : ¬cell.text = "" := by simp [empty, filled]
      rw [if_neg full, ih, Option.map_some, List.map_cons]

theorem showsRow_element (named : table.Named) :
    ∃ heading cells, (table.pageRow options nonterminal).element.cells = heading :: cells ∧
      table.ShowsRow options nonterminal heading cells := by
  have shown : List.Forall₂ (table.ShowsCell options nonterminal) table.columns
      ((table.columns.map (table.cellLine options nonterminal)).map Html.Line.element) := by
    rw [List.map_map, List.forall₂_map_right_iff, List.forall₂_same]
    exact fun lookahead _ => showsCell_element named
  rw [Html.Row.cells_element pageRow_isLegible]
  refine ⟨_, _, rfl, rfl, Html.Line.element_text _, shown, ?_⟩
  exact congrArg Except.ok (filledColumns_eq shown).symm

/-! ### The page -/

/-- The cell in a row and a column of a page, behind the heading of the row. -/
def cellAt (page : String) (place : Nat × Nat) : Option Element :=
  (tableRows page)[place.1]?.bind fun row => row.cells[place.2 + 1]?

theorem getElem?_of_forall₂ {Left Right : Type} {alike : Left → Right → Prop} {lefts : List Left}
    {rights : List Right} (related : List.Forall₂ alike lefts rights) {i : Nat} {left : Left}
    (found : lefts[i]? = some left) : ∃ right, rights[i]? = some right ∧ alike left right := by
  obtain ⟨inside, rfl⟩ := List.getElem?_eq_some_iff.mp found
  have within : i < rights.length := related.length_eq ▸ inside
  exact ⟨rights[i], List.getElem?_eq_getElem within, related.get inside within⟩

/-- A page of which the rows are those of the non-terminals, in their order. -/
def ShowsRows (options : DisplayOptions) (table : ParseTable) (page : String) : Prop :=
  List.Forall₂
    (fun nonterminal row => ∃ heading cells, row.cells = heading :: cells ∧
      table.ShowsRow options nonterminal heading cells)
    table.grammar.nonTerminals (tableRows page)

/-- A page from which a table is read: row by row, and each entry and each conflict at one place. -/
structure IsShown (options : DisplayOptions) (table : ParseTable) (page : String) : Prop where
  rows : table.ShowsRows options page
  entries : ∀ entry ∈ table.cells, ∃! place,
    table.grammar.IsPlace entry.nonterminal entry.lookahead place ∧
      ∃ cell production, cellAt page place = some cell ∧
        table.grammar.production entry.id = .ok production ∧
        cell.text = if options.showIds then toString entry.id else escapeHtml production.text
  conflicts : ∀ conflict ∈ table.conflicts, ∃! place,
    table.grammar.IsPlace conflict.nonterminal conflict.lookahead place ∧
      ∃ cell, cellAt page place = some cell ∧ "conflict-cell" ∈ cell.classes

/-- A table in which filled cells and conflicts stand in the rows of non-terminals, below terminals or
the end of input. -/
structure Covered (table : ParseTable) : Prop where
  entry : ∀ entry ∈ table.cells, table.at? entry.nonterminal entry.lookahead = some entry.id ∧
    entry.nonterminal ∈ table.grammar.nonTerminals ∧ entry.lookahead ∈ table.grammar.lookaheads
  conflict : ∀ conflict ∈ table.conflicts,
    conflict.nonterminal ∈ table.grammar.nonTerminals ∧
      conflict.lookahead ∈ table.grammar.lookaheads

section
variable {page : String} (rows : table.ShowsRows options page)
include rows

theorem exists_cellAt {place : Nat × Nat}
    (found : table.grammar.IsPlace nonterminal lookahead place) :
    ∃ cell, cellAt page place = some cell ∧
      table.ShowsCell options nonterminal lookahead cell := by
  obtain ⟨row, inPage, heading, cells, content, shows⟩ := getElem?_of_forall₂ rows found.1
  obtain ⟨cell, inRow, right⟩ := getElem?_of_forall₂ shows.shown found.2
  refine ⟨cell, ?_, right⟩
  rw [cellAt, inPage, Option.bind_some, content, List.getElem?_cons_succ, inRow]

/-- Where entries and conflicts stand in the grid, each of them is read at one place. -/
theorem isShown_of_rows (covered : table.Covered) : table.IsShown options page where
  rows := rows
  entries := by
    intro entry entered
    obtain ⟨held, row, column⟩ := covered.entry entry entered
    obtain ⟨place, found, unique⟩ := Grammar.existsUnique_place row column
    obtain ⟨cell, here, shows⟩ := exists_cellAt rows found
    obtain ⟨production, known, text⟩ := shows.filled _ held
    exact ⟨place, ⟨found, cell, production, here, known, text⟩, fun other same => unique other same.1⟩
  conflicts := by
    intro conflict reported
    obtain ⟨row, column⟩ := covered.conflict conflict reported
    obtain ⟨place, found, unique⟩ := Grammar.existsUnique_place row column
    obtain ⟨cell, here, shows⟩ := exists_cellAt rows found
    exact ⟨place, ⟨found, cell, here, shows.conflicted.mpr ⟨conflict, reported, rfl, rfl⟩⟩,
      fun other same => unique other same.1⟩

end

theorem exists_page (named : table.Named) (covered : table.Covered) :
    ∃ tree page, table.html options = .ok tree ∧ tree.render =
        Html.openTag "table" [("class", "grammar-table " ++ options.tableClasses), ("role", "table"),
          ("aria-label", "LL(1) Parse Table")] ++ page ∧
      table.IsShown options page := by
  have legible : ∀ row ∈ table.grammar.nonTerminals.map (table.pageRow options), row.IsLegible := by
    intro row member
    obtain ⟨nonterminal, -, rfl⟩ := List.mem_map.mp member
    exact pageRow_isLegible
  have rows : table.grammar.nonTerminals.mapM (table.rowHtml options) =
      .ok ((table.grammar.nonTerminals.map (table.pageRow options)).map Html.Row.html) := by
    rw [List.map_map]
    exact mapM_eq_ok fun _ _ => rowHtml_eq named
  obtain ⟨page, written, read⟩ := Html.exists_page_table options.tableClasses "LL(1) Parse Table"
    ("" :: table.columns.map Symbol.name) legible
  refine ⟨_, page, by rw [html, rows]; rfl, written, isShown_of_rows ?_ covered⟩
  rw [ShowsRows, read, List.map_map, List.forall₂_map_right_iff, List.forall₂_same]
  exact fun _ _ => showsRow_element named

end ParseTable

namespace Grammar

variable {grammar : Grammar} {strategy : Strategy}

theorem parseTable_covered {rules : List Rule} {start : Option String} {policy : NamePolicy}
    (built : ofRules rules start policy = .ok grammar) : (grammar.parseTable strategy).Covered where
  entry := by
    intro entry entered
    have held := at?_parseTable_iff_mem.mpr entered
    exact ⟨held, mem_of_at?_parseTable built held⟩
  conflict := by
    intro conflict reported
    obtain ⟨production, declared, lookahead, kept, held, -, rfl⟩ := exists_of_mem_conflicts reported
    exact mem_of_at?_parseTable built held

end Grammar

namespace Session

/-- The page of a table that a session builds for a grammar from rules, under either strategy and
whatever was asked before, shows exactly the table. -/
theorem table_page_shows_table {rules : List Rule} {start : Option String} {policy : NamePolicy}
    {grammar : Grammar} (built : Grammar.ofRules rules start policy = .ok grammar)
    (strategy : Strategy) (requests : List Request) (options : DisplayOptions) :
    let table := ((new grammar strategy).after requests).table.1
    table.grammar = grammar ∧
      (∀ nonterminal lookahead id, table.get? (.exact nonterminal) (.exact lookahead) = some id ↔
        ⟨nonterminal, lookahead, id⟩ ∈ table.cells) ∧
      ∃ tree page, table.html options = .ok tree ∧ tree.render =
          Html.openTag "table" [("class", "grammar-table " ++ options.tableClasses),
            ("role", "table"), ("aria-label", "LL(1) Parse Table")] ++ page ∧
        table.IsShown options page := by
  intro table
  obtain ⟨-, -, filled⟩ := answers_after grammar strategy requests
  change table = grammar.parseTable strategy at filled
  rw [filled]
  exact ⟨rfl, fun _ _ _ => Grammar.at?_parseTable_iff_mem,
    ParseTable.exists_page Grammar.parseTable_named (Grammar.parseTable_covered built)⟩

/-- Two alternatives that begin alike, in names that would be a tag and a reference. -/
def disputedRules : List Rule :=
  [⟨"<S>", ["&amp;", "<S>"]⟩, ⟨"<S>", ["&amp;"]⟩]

def disputedGrammar : Grammar where
  productions :=
    [⟨1, .nonterminal "<S>", [.terminal "&amp;", .nonterminal "<S>"]⟩,
     ⟨2, .nonterminal "<S>", [.terminal "&amp;"]⟩]
  start := .nonterminal "<S>"
  sound := by decide

theorem table_page_shows_table_disputed :
    let options : DisplayOptions := { tableClasses := "\">" }
    let table := ((new disputedGrammar .recursive).after [.table]).table.1
    Grammar.ofRules disputedRules none {} = .ok disputedGrammar ∧
      table.grammar = disputedGrammar ∧
      (∀ nonterminal lookahead id, table.get? (.exact nonterminal) (.exact lookahead) = some id ↔
        ⟨nonterminal, lookahead, id⟩ ∈ table.cells) ∧
      ∃ tree page, table.html options = .ok tree ∧ tree.render =
          Html.openTag "table" [("class", "grammar-table " ++ options.tableClasses),
            ("role", "table"), ("aria-label", "LL(1) Parse Table")] ++ page ∧
        table.IsShown options page := by
  intro options table
  have built : Grammar.ofRules disputedRules none {} = .ok disputedGrammar := by cbv
  exact ⟨built, table_page_shows_table built .recursive [.table] options⟩

end Session

end Predictive
