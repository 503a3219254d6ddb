import Predictive.Grammar.Basic

/-! Parse tables: which production a non-terminal is replaced by when a lookahead comes next. Cells
are kept in the order in which they were filled. -/

set_option autoImplicit false

namespace Predictive

structure Cell where
  nonterminal : Symbol
  lookahead : Symbol
  id : Int
  deriving DecidableEq, Repr

/-- A production that was refused a cell, since another one held it. -/
structure Conflict where
  nonterminal : Symbol
  lookahead : Symbol
  keptId : Int
  rejectedId : Int
  description : String := ""
  deriving DecidableEq, Repr

def Conflict.text (conflict : Conflict) : String :=
  "LL(1) conflict in M[" ++ conflict.nonterminal.name ++ ", " ++ conflict.lookahead.name ++
    "]: production " ++ toString conflict.keptId ++ " kept, production " ++
    toString conflict.rejectedId ++ " rejected" ++
    if conflict.description.isEmpty then "" else " (" ++ conflict.description ++ ")"

namespace Cell

def isAt (nonterminal lookahead : Symbol) (cell : Cell) : Bool :=
  cell.nonterminal = nonterminal && cell.lookahead = lookahead

/-- What a row of cells holds for a pair. -/
def lookup? (cells : List Cell) (nonterminal lookahead : Symbol) : Option Int :=
  (cells.find? (isAt nonterminal lookahead)).map Cell.id

/-- Fills a cell. One that is filled already takes the new production and keeps its place. -/
def enter (cells : List Cell) (cell : Cell) : List Cell :=
  match cells with
  | [] => [cell]
  | first :: rest =>
    if first.isAt cell.nonterminal cell.lookahead then cell :: rest else first :: enter rest cell

theorem lookup?_enter (cells : List Cell) (cell : Cell) (nonterminal lookahead : Symbol) :
    lookup? (enter cells cell) nonterminal lookahead =
      if cell.isAt nonterminal lookahead then some cell.id
      else lookup? cells nonterminal lookahead := by
  induction cells with
  | nil => by_cases same : cell.isAt nonterminal lookahead <;> simp [enter, lookup?, same]
  | cons first rest ih =>
    unfold enter
    by_cases found : first.isAt cell.nonterminal cell.lookahead
    · by_cases same : cell.isAt nonterminal lookahead
      · simp [found, lookup?, same]
      · have other : ¬first.isAt nonterminal lookahead = true := by
          simp only [isAt, Bool.and_eq_true, decide_eq_true_eq] at found same ⊢
          rw [found.1, found.2]
          exact same
        simp [found, lookup?, same, other]
    · by_cases firstAt : first.isAt nonterminal lookahead
      · have other : ¬cell.isAt nonterminal lookahead = true := by
          simp only [isAt, Bool.and_eq_true, decide_eq_true_eq] at found firstAt ⊢
          rintro ⟨left, right⟩
          exact found ⟨firstAt.1.trans left.symm, firstAt.2.trans right.symm⟩
        simp [found, lookup?, other, firstAt]
      · simp only [lookup?, found, Bool.false_eq_true, if_false, List.find?_cons, firstAt] at ih ⊢
        exact ih

end Cell

structure ParseTable where
  grammar : Grammar
  cells : List Cell
  conflicts : List Conflict := []

namespace ParseTable

/-- The table with the given cells, of which a later one replaces an earlier one of its place. -/
def ofCells (grammar : Grammar) (cells : List Cell) (conflicts : List Conflict) : ParseTable :=
  ⟨grammar, cells.foldl Cell.enter [], conflicts⟩

def isLL1 (table : ParseTable) : Bool :=
  table.conflicts.isEmpty

def size (table : ParseTable) : Nat :=
  table.cells.length

def at? (table : ParseTable) (nonterminal lookahead : Symbol) : Option Int :=
  Cell.lookup? table.cells nonterminal lookahead

/-- Every filled cell names a production of the grammar. -/
def Named (table : ParseTable) : Prop :=
  ∀ nonterminal lookahead id, table.at? nonterminal lookahead = some id →
    ∃ production ∈ table.grammar.productions, production.id = id

/-- As `at?`; nothing is in a cell of an unknown name. -/
def get? (table : ParseTable) (nonterminal lookahead : SymbolReference) : Option Int :=
  match table.grammar.resolve? nonterminal, table.grammar.resolve? lookahead with
  | some nonterminal, some lookahead => table.at? nonterminal lookahead
  | _, _ => none

/-- The production that a cell names, if the cell is filled. -/
def productionAt (table : ParseTable) (nonterminal lookahead : Symbol) :
    Except Error (Option Production) :=
  match table.at? nonterminal lookahead with
  | some id => (table.grammar.production id).map some
  | none => .ok none

def productionFor (table : ParseTable) (nonterminal lookahead : SymbolReference) :
    Except Error (Option Production) :=
  match table.get? nonterminal lookahead with
  | some id => (table.grammar.production id).map some
  | none => .ok none

def columns (table : ParseTable) : List Symbol :=
  table.grammar.lookaheads

/-- The filled cells of a non-terminal in the order of the columns. -/
def rowAt (table : ParseTable) (nonterminal : Symbol) : List (Symbol × Int) :=
  table.columns.filterMap fun lookahead =>
    (table.at? nonterminal lookahead).map fun id => (lookahead, id)

def row (table : ParseTable) (nonterminal : SymbolReference) :
    Except GrammarError (List (Symbol × Int)) :=
  (table.grammar.resolve nonterminal).map table.rowAt

def expectedAt (table : ParseTable) (nonterminal : Symbol) : List Symbol :=
  (table.rowAt nonterminal).map Prod.fst

def expected (table : ParseTable) (nonterminal : SymbolReference) :
    Except GrammarError (List Symbol) :=
  (table.grammar.resolve nonterminal).map table.expectedAt

/-- Whether two tables fill the same cells alike and report the same conflicts. -/
def agrees (left right : ParseTable) : Bool :=
  left.size = right.size &&
    left.cells.all (fun cell => right.at? cell.nonterminal cell.lookahead = some cell.id) &&
    left.conflicts = right.conflicts

def rowLines (table : ParseTable) (nonterminal : Symbol) : Except Error (List String) :=
  (table.rowAt nonterminal).mapM fun (lookahead, id) => do
    let production ← table.grammar.production id
    return "  M[" ++ nonterminal.name ++ ", " ++ lookahead.name ++ "] = " ++ production.text

def text (table : ParseTable) : Except Error String := do
  let rows ← table.grammar.nonTerminals.mapM table.rowLines
  return "\n".intercalate ("LL(1) Parse Table:" :: rows.flatten)

end ParseTable

end Predictive
