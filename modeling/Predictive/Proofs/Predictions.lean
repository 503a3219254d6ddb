import Predictive.Proofs.Sessions
import Predictive.Analysis

/-! What a parse table is filled with. The productions with the lookaheads that the sets predict
for them are entered one after another: a cell holds the production that was entered first, and
every other one that belongs there is a conflict. So the cells of a table without conflicts say
exactly which production derives what begins with a lookahead. -/

set_option autoImplicit false

namespace Predictive

theorem Grammar.mem_sortSymbols {grammar : Grammar} {symbol : Symbol} {symbols : List Symbol} :
    symbol ∈ grammar.sortSymbols symbols ↔ symbol ∈ symbols := by
  unfold sortSymbols
  simp [List.mem_mergeSort]

/-! ### Entering one production after another -/

/-- A production and a lookahead for which it is entered. -/
structure Prediction where
  production : Production
  lookahead : Symbol
  deriving DecidableEq, Repr

namespace Prediction

def isAt (nonterminal lookahead : Symbol) (prediction : Prediction) : Bool :=
  prediction.production.lhs = nonterminal && prediction.lookahead = lookahead

/-- The conflict of a prediction with what its cell holds. -/
def conflict? (grammar : Grammar) (cells : List Cell) (prediction : Prediction) :
    Option Conflict :=
  (Cell.lookup? cells prediction.production.lhs prediction.lookahead).bind fun kept =>
    if kept = prediction.production.id then none
    else some ⟨prediction.production.lhs, prediction.lookahead, kept, prediction.production.id,
      grammar.productionText kept ++ " vs " ++ prediction.production.text⟩

end Prediction

theorem Cell.lookup?_append_singleton (cells : List Cell) (cell : Cell)
    (nonterminal lookahead : Symbol) :
    lookup? (cells ++ [cell]) nonterminal lookahead =
      (lookup? cells nonterminal lookahead).or
        (if cell.isAt nonterminal lookahead then some cell.id else none) := by
  unfold lookup?
  rw [List.find?_append]
  cases cells.find? (isAt nonterminal lookahead) with
  | some found => rfl
  | none => by_cases here : cell.isAt nonterminal lookahead <;> simp [here]

namespace Filling

variable (grammar : Grammar)

/-- The filling with some predictions entered, in order. -/
def predict (filling : Filling) (predictions : List Prediction) : Filling :=
  predictions.foldl (fun filling prediction => filling.enter grammar prediction.production prediction.lookahead)
    filling

variable {grammar} {filling : Filling} {prediction : Prediction} {predictions : List Prediction}

@[simp] theorem predict_nil : filling.predict grammar [] = filling := rfl

@[simp] theorem predict_cons : filling.predict grammar (prediction :: predictions) =
    (filling.enter grammar prediction.production prediction.lookahead).predict grammar predictions := rfl

theorem predict_append (first second : List Prediction) :
    filling.predict grammar (first ++ second) =
      (filling.predict grammar first).predict grammar second :=
  List.foldl_append

/-- A cell keeps what it holds; an empty one takes what is entered there. -/
theorem lookup?_enter (nonterminal lookahead : Symbol) :
    Cell.lookup? (filling.enter grammar prediction.production prediction.lookahead).cells nonterminal lookahead =
      (Cell.lookup? filling.cells nonterminal lookahead).or
        (if prediction.isAt nonterminal lookahead then some prediction.production.id else none) := by
  unfold enter
  cases held : Cell.lookup? filling.cells prediction.production.lhs prediction.lookahead with
  | none => exact Cell.lookup?_append_singleton _ _ _ _
  | some kept =>
    -- the cells stay as they are, with or without a conflict
    have same : (Cell.lookup? filling.cells nonterminal lookahead).or
        (if prediction.isAt nonterminal lookahead then some prediction.production.id else none) =
          Cell.lookup? filling.cells nonterminal lookahead := by
      by_cases here : prediction.isAt nonterminal lookahead = true
      · obtain ⟨rfl, rfl⟩ : prediction.production.lhs = nonterminal ∧ prediction.lookahead = lookahead := by
          simpa [Prediction.isAt] using here
        rw [held]
        rfl
      · simp [here]
    rw [same]
    dsimp only
    split <;> rfl

/-- A cell holds the production that was entered there first. -/
theorem lookup?_predict (nonterminal lookahead : Symbol) :
    Cell.lookup? (filling.predict grammar predictions).cells nonterminal lookahead =
      (Cell.lookup? filling.cells nonterminal lookahead).or
        ((predictions.find? (Prediction.isAt nonterminal lookahead)).map (·.production.id)) := by
  induction predictions generalizing filling with
  | nil => simp
  | cons first rest ih =>
    rw [predict_cons, ih, lookup?_enter, Option.or_assoc]
    congr 1
    by_cases here : first.isAt nonterminal lookahead = true <;> simp [here]

theorem conflicts_enter :
    (filling.enter grammar prediction.production prediction.lookahead).conflicts =
      filling.conflicts ++ (prediction.conflict? grammar filling.cells).toList := by
  unfold enter Prediction.conflict?
  cases Cell.lookup? filling.cells prediction.production.lhs prediction.lookahead with
  | none => simp
  | some kept => by_cases own : kept = prediction.production.id <;> simp [own]

/-- What a prediction conflicts with is decided when it is entered. -/
theorem conflict?_predict :
    prediction.conflict? grammar (filling.predict grammar (prediction :: predictions)).cells =
      prediction.conflict? grammar filling.cells := by
  unfold Prediction.conflict?
  rw [lookup?_predict]
  cases Cell.lookup? filling.cells prediction.production.lhs prediction.lookahead with
  | none => simp [Prediction.isAt]
  | some kept => rfl

/-- The conflicts are those of the predictions with what the cells hold in the end. -/
theorem conflicts_predict :
    (filling.predict grammar predictions).conflicts = filling.conflicts ++
      predictions.filterMap
        (Prediction.conflict? grammar (filling.predict grammar predictions).cells) := by
  induction predictions generalizing filling with
  | nil => simp
  | cons first rest ih =>
    -- the first prediction finds its cell as it is in the end
    rw [List.filterMap_cons, conflict?_predict, predict_cons, ih, conflicts_enter]
    cases first.conflict? grammar filling.cells <;> simp

end Filling

/-! ### The predictions of a grammar -/

namespace Grammar

variable (grammar : Grammar)

/-- The lookaheads of a production, in the order in which it is entered for them. -/
def lookaheadsOf (first follow : Assignment) (production : Production) : List Symbol :=
  let found := firstOfSequence first production.rhs
  grammar.sortSymbols (found.without .epsilon).elements ++
    if .epsilon ∈ found then grammar.sortSymbols (follow.get production.lhs).elements else []

def predictions (first follow : Assignment) : List Prediction :=
  grammar.productions.flatMap fun production =>
    (grammar.lookaheadsOf first follow production).map (⟨production, ·⟩)

/-- The filling of the table under a strategy. -/
def filling (strategy : Strategy) : Filling :=
  Filling.predict grammar {}
    (grammar.predictions (grammar.firstSets strategy) (grammar.followAssignment strategy))

def parseTable (strategy : Strategy) : ParseTable :=
  ⟨grammar, (grammar.filling strategy).cells, (grammar.filling strategy).conflicts⟩

variable {grammar} {first follow : Assignment}

theorem mem_lookaheadsOf {production : Production} {lookahead : Symbol} :
    lookahead ∈ grammar.lookaheadsOf first follow production ↔
      (lookahead ∈ firstOfSequence first production.rhs ∧ lookahead ≠ .epsilon) ∨
        (.epsilon ∈ firstOfSequence first production.rhs ∧
          lookahead ∈ follow.get production.lhs) := by
  unfold lookaheadsOf
  rw [List.mem_append, mem_sortSymbols, SymbolSet.mem_elements, SymbolSet.mem_without]
  by_cases empty : .epsilon ∈ firstOfSequence first production.rhs
  · simp [empty, mem_sortSymbols, SymbolSet.mem_elements]
  · simp [empty]

theorem mem_predictions {prediction : Prediction} :
    prediction ∈ grammar.predictions first follow ↔
      prediction.production ∈ grammar.productions ∧
        prediction.lookahead ∈ grammar.lookaheadsOf first follow prediction.production := by
  obtain ⟨production, lookahead⟩ := prediction
  simp [predictions]

end Grammar

namespace Session

variable {session : Session}

theorem enterProduction_eq (coherent : session.Coherent) (filling : Filling)
    (production : Production) :
    (enterProduction (filling, session) production).1 =
      filling.predict session.grammar
        ((session.grammar.lookaheadsOf (session.grammar.firstSets session.strategy)
          (session.grammar.followAssignment session.strategy) production).map (⟨production, ·⟩)) := by
  obtain ⟨requested, found⟩ := coherent.request production.rhs true
  obtain ⟨_, computed⟩ := requested.coherent.withFollow
  rw [requested.grammar, requested.strategy] at computed
  unfold enterProduction Grammar.lookaheadsOf
  dsimp only
  rw [found, requested.grammar]
  split
  · rw [computed, List.map_append, Filling.predict_append]
    simp only [Filling.enterAll, Filling.predict, List.foldl_map,
      requested.coherent.withFollow.1.grammar, requested.grammar]
  · rw [List.append_nil]
    simp only [Filling.enterAll, Filling.predict, List.foldl_map]

theorem foldl_enterProduction (coherent : session.Coherent) (filling : Filling)
    (productions : List Production) :
    (productions.foldl enterProduction (filling, session)).1 =
      filling.predict session.grammar
        (productions.flatMap fun production =>
          (session.grammar.lookaheadsOf (session.grammar.firstSets session.strategy)
            (session.grammar.followAssignment session.strategy) production).map (⟨production, ·⟩)) := by
  induction productions generalizing filling session with
  | nil => rfl
  | cons production rest ih =>
    -- the session changes on the way, but not the sets from which it answers
    have entered := coherent.enterProduction filling production
    rw [List.foldl_cons, List.flatMap_cons, Filling.predict_append,
      ← enterProduction_eq coherent filling production, ← entered.grammar, ← entered.strategy]
    exact ih entered.coherent _

/-- The table of a session, whatever it was asked before. -/
theorem Coherent.table_eq (coherent : session.Coherent) :
    session.table.1 = session.grammar.parseTable session.strategy := by
  unfold Session.table Grammar.parseTable Grammar.filling Grammar.predictions
  dsimp only
  rw [foldl_enterProduction coherent]

end Session

theorem Analysis.table_new (grammar : Grammar) (strategy : Strategy) :
    (Analysis.new grammar strategy).table = grammar.parseTable strategy := by
  have first := (Session.coherent_new grammar strategy).withFirst.1
  have second := first.trans first.coherent.withFollow.1
  have table := second.coherent.table_eq
  rw [second.grammar, second.strategy] at table
  exact table

/-! ### What the cells say -/

namespace Grammar

variable {grammar : Grammar} {strategy : Strategy} {production : Production}
  {nonterminal lookahead : Symbol}

theorem at?_parseTable :
    (grammar.parseTable strategy).at? nonterminal lookahead =
      ((grammar.predictions (grammar.firstSets strategy) (grammar.followAssignment strategy)).find?
        (Prediction.isAt nonterminal lookahead)).map (·.production.id) := by
  unfold parseTable ParseTable.at? filling
  exact Filling.lookup?_predict nonterminal lookahead

theorem exists_of_at?_parseTable {id : Int}
    (filled : (grammar.parseTable strategy).at? nonterminal lookahead = some id) :
    ∃ production ∈ grammar.productions, production.id = id ∧ production.lhs = nonterminal ∧
      lookahead ∈ grammar.lookaheadsOf (grammar.firstSets strategy)
        (grammar.followAssignment strategy) production := by
  rw [at?_parseTable] at filled
  obtain ⟨⟨production, other⟩, found, rfl⟩ := Option.map_eq_some_iff.mp filled
  obtain ⟨declared, predicted⟩ := mem_predictions.mp (List.mem_of_find?_eq_some found)
  obtain ⟨owner, rfl⟩ : production.lhs = nonterminal ∧ other = lookahead := by
    simpa [Prediction.isAt] using List.find?_some found
  exact ⟨production, declared, rfl, owner, predicted⟩

/-- The cells of a grammar's table name productions of this grammar. -/
theorem parseTable_named : (grammar.parseTable strategy).Named := by
  intro nonterminal lookahead id filled
  obtain ⟨production, declared, same, -⟩ := exists_of_at?_parseTable filled
  exact ⟨production, declared, same⟩

/-- Without conflicts, a production is in the cells of all lookaheads that are predicted for it. -/
theorem at?_parseTable_of_isLL1 (clean : (grammar.parseTable strategy).isLL1 = true)
    (declared : production ∈ grammar.productions)
    (predicted : lookahead ∈ grammar.lookaheadsOf (grammar.firstSets strategy)
      (grammar.followAssignment strategy) production) :
    (grammar.parseTable strategy).at? production.lhs lookahead = some production.id := by
  have member : ⟨production, lookahead⟩ ∈
      grammar.predictions (grammar.firstSets strategy) (grammar.followAssignment strategy) :=
    mem_predictions.mpr ⟨declared, predicted⟩
  have none : Prediction.conflict? grammar (grammar.filling strategy).cells
      ⟨production, lookahead⟩ = none := by
    have empty : (grammar.filling strategy).conflicts = [] := List.isEmpty_iff.mp clean
    unfold filling at empty ⊢
    rw [Filling.conflicts_predict] at empty
    exact List.filterMap_eq_nil_iff.mp (List.append_eq_nil_iff.mp empty).2 _ member
  cases held : (grammar.parseTable strategy).at? production.lhs lookahead with
  | none =>
    rw [at?_parseTable, Option.map_eq_none_iff, List.find?_eq_none] at held
    exact absurd (by simp [Prediction.isAt]) (held _ member)
  | some kept =>
    change Cell.lookup? (grammar.filling strategy).cells production.lhs lookahead = some kept at held
    by_contra other
    have different : kept ≠ production.id := fun same => other (congrArg some same)
    simp [Prediction.conflict?, held, different] at none

end Grammar

end Predictive
