import Predictive.Html.Tree
import Predictive.Analysis

/-! The parse table, the FIRST and FOLLOW sets and the productions of a grammar as HTML. -/

set_option autoImplicit false

namespace Predictive

def setText (names : List String) : String :=
  "\x7b" ++ ", ".intercalate names ++ "\x7d"

namespace ParseTable

def isConflicted (table : ParseTable) (nonterminal lookahead : Symbol) : Bool :=
  table.conflicts.any fun conflict =>
    conflict.nonterminal = nonterminal && conflict.lookahead = lookahead

/-- The text of a cell; nothing if it is not filled. A cell that names no production of the grammar
can be shown by its id only. -/
def cellText (options : DisplayOptions) (table : ParseTable) (nonterminal lookahead : Symbol) :
    Except Error String :=
  match table.at? nonterminal lookahead with
  | none => .ok ""
  | some id =>
    if options.showIds then .ok (toString id) else (table.grammar.production id).map Production.text

def cellHtml (options : DisplayOptions) (table : ParseTable) (nonterminal lookahead : Symbol) :
    Except Error Html := do
  let classes :=
    if table.isConflicted nonterminal lookahead then "grammar-table-cell conflict-cell"
    else "grammar-table-cell"
  return .cell classes (← table.cellText options nonterminal lookahead)

/-- The row of a non-terminal: its name, then a cell for each column. -/
def rowHtml (options : DisplayOptions) (table : ParseTable) (nonterminal : Symbol) :
    Except Error Html := do
  let cells ← table.columns.mapM (table.cellHtml options nonterminal)
  return .block "tr" [] (.rowHeading nonterminal.name :: cells)

def html (options : DisplayOptions) (table : ParseTable) : Except Error Html := do
  let rows ← table.grammar.nonTerminals.mapM (table.rowHtml options)
  return .table options.tableClasses "LL(1) Parse Table" ("" :: table.columns.map Symbol.name) rows

section
variable {options : DisplayOptions} {table : ParseTable}
  (known : options.showIds = true ∨ table.Named)
include known

theorem exists_cellText (nonterminal lookahead : Symbol) :
    ∃ text, table.cellText options nonterminal lookahead = .ok text := by
  unfold cellText
  split
  · exact ⟨_, rfl⟩
  · rename_i id filled
    rcases known with shown | named
    · exact ⟨_, if_pos shown⟩
    · obtain ⟨production, declared, same⟩ := named nonterminal lookahead id filled
      have found : (table.grammar.production? id).isSome := by
        rw [Grammar.production?, List.find?_isSome]
        exact ⟨production, declared, by simpa using same⟩
      obtain ⟨other, found⟩ := Option.isSome_iff_exists.mp found
      split
      · exact ⟨_, rfl⟩
      · exact ⟨other.text, by simp [Grammar.production, found, Except.map]⟩

theorem exists_html : ∃ page, table.html options = .ok page := by
  have cells (nonterminal lookahead : Symbol) :
      ∃ cell, table.cellHtml options nonterminal lookahead = .ok cell := by
    obtain ⟨text, shown⟩ := exists_cellText known nonterminal lookahead
    exact ⟨_, by rw [cellHtml, shown]; rfl⟩
  have rows (nonterminal : Symbol) : ∃ row, table.rowHtml options nonterminal = .ok row := by
    obtain ⟨row, shown⟩ := exists_mapM_eq_ok fun lookahead (_ : lookahead ∈ table.columns) =>
      cells nonterminal lookahead
    exact ⟨_, by rw [rowHtml, shown]; rfl⟩
  obtain ⟨page, shown⟩ := exists_mapM_eq_ok fun nonterminal
    (_ : nonterminal ∈ table.grammar.nonTerminals) => rows nonterminal
  exact ⟨_, by rw [html, shown]; rfl⟩

end

end ParseTable

def Grammar.productionsHtml (grammar : Grammar) : Html :=
  .block "ol" [("class", "production-list")] <|
    grammar.productions.map fun production =>
      .line "li" [("value", toString production.id)] production.text

namespace Analysis

def setsRow (analysis : Analysis) (nonterminal : Symbol) : Html :=
  let shown (set : SymbolSet) : Html := .cell "grammar-table-cell" (setText (analysis.sortedNames set))
  .block "tr" []
    [.rowHeading nonterminal.name, shown (analysis.firstAt nonterminal),
      shown (analysis.followAt nonterminal)]

def setsHtml (analysis : Analysis) : Html :=
  .table "first-follow-table" "FIRST and FOLLOW sets" ["Non-terminal", "FIRST", "FOLLOW"]
    (analysis.grammar.nonTerminals.map analysis.setsRow)

end Analysis

end Predictive
