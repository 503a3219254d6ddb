import Predictive.Table.Basic
import Predictive.Sets.Session

/-! Filling a parse table. A production belongs into the cells of the lookaheads that begin its
right-hand side and, if that can be empty, of those that follow its left-hand side. Where two
productions belong into one cell, the one that was declared first keeps it. -/

set_option autoImplicit false

namespace Predictive

/-- The text of a production that the grammar declares. -/
def Grammar.productionText (grammar : Grammar) (id : Int) : String :=
  ((grammar.production? id).map Production.text).getD ""

/-- The cells that are filled so far, and the conflicts on the way. -/
structure Filling where
  cells : List Cell := []
  conflicts : List Conflict := []
  deriving DecidableEq, Repr

namespace Filling

def enter (grammar : Grammar) (production : Production) (filling : Filling) (lookahead : Symbol) :
    Filling :=
  match Cell.lookup? filling.cells production.lhs lookahead with
  | none =>
    { filling with cells := filling.cells ++ [⟨production.lhs, lookahead, production.id⟩] }
  | some kept =>
    if kept = production.id then filling
    else
      { filling with
        conflicts := filling.conflicts ++
          [⟨production.lhs, lookahead, kept, production.id,
            grammar.productionText kept ++ " vs " ++ production.text⟩] }

/-- Enters a production for some lookaheads, in the order of the grammar. -/
def enterAll (grammar : Grammar) (production : Production) (filling : Filling)
    (lookaheads : SymbolSet) : Filling :=
  (grammar.sortSymbols lookaheads.elements).foldl (enter grammar production) filling

end Filling

namespace Session

/-- Enters a production where its FIRST and FOLLOW sets say. -/
def enterProduction (state : Filling × Session) (production : Production) : Filling × Session :=
  let (filling, session) := state
  let (found, session) := session.request production.rhs true
  let filling := filling.enterAll session.grammar production (found.without .epsilon)
  if .epsilon ∈ found then
    let session := session.withFollow
    let follow := session.followAssignment.get production.lhs
    (filling.enterAll session.grammar production follow, session)
  else (filling, session)

def table (session : Session) : ParseTable × Session :=
  let grammar := session.grammar
  let (filling, session) := grammar.productions.foldl enterProduction ({}, session)
  (⟨grammar, filling.cells, filling.conflicts⟩, session)

end Session

def ParseTable.report (table : ParseTable) : String :=
  if table.isLL1 then "No conflicts detected: the grammar is LL(1)."
  else
    "\n".intercalate <|
      ("Found " ++ toString table.conflicts.length ++ " conflict(s) in the parse table:\n") ::
        (table.conflicts.zipIdx 1).flatMap fun (conflict, number) =>
          ["Conflict " ++ toString number ++ ": " ++ conflict.text,
           "  kept:     " ++ table.grammar.productionText conflict.keptId,
           "  rejected: " ++ table.grammar.productionText conflict.rejectedId,
           ""]

end Predictive
