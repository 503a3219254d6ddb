import Predictive.Proofs.Predictions
import Predictive.Proofs.ExactSets

/-! Which production a cell holds and which conflicts are reported, read off the sets that a session
answers with. Among the productions that predict a lookahead for a non-terminal, the first that was
declared has the cell, and each of the others is in conflict with it. -/

set_option autoImplicit false

namespace Predictive

/-- Where two productions meet, and which of them has the cell. -/
def Conflict.parties (conflict : Conflict) : Symbol × Symbol × Int × Int :=
  (conflict.nonterminal, conflict.lookahead, conflict.keptId, conflict.rejectedId)

namespace Grammar

/-- The place of an identity in the order of declaration. -/
def position (grammar : Grammar) (id : Int) : Nat :=
  (grammar.productions.map Production.id).idxOf id

/-- The productions of a non-terminal that are entered for a lookahead, in declaration order. -/
def entrants (grammar : Grammar) (first follow : Assignment) (nonterminal lookahead : Symbol) :
    List Production :=
  grammar.productions.filter fun production =>
    production.lhs = nonterminal && lookahead ∈ grammar.lookaheadsOf first follow production

variable {grammar : Grammar} {first follow : Assignment} {nonterminal lookahead : Symbol}
  {production : Production}

theorem mem_entrants :
    production ∈ grammar.entrants first follow nonterminal lookahead ↔
      production ∈ grammar.productions ∧ production.lhs = nonterminal ∧
        lookahead ∈ grammar.lookaheadsOf first follow production := by
  simp [entrants]

/-- The entrants have identities of their own, in the order of their places. -/
theorem entrants_ids_nodup :
    ((grammar.entrants first follow nonterminal lookahead).map Production.id).Nodup :=
  grammar.ids_nodup.sublist (List.filter_sublist.map _)

theorem find?_lookaheads (lookaheads : List Symbol) :
    (lookaheads.map (Prediction.mk production)).find? (Prediction.isAt nonterminal lookahead) =
      if production.lhs = nonterminal ∧ lookahead ∈ lookaheads then some ⟨production, lookahead⟩
      else none := by
  induction lookaheads with
  | nil => simp
  | cons head rest ih =>
    rw [List.map_cons, List.find?_cons, ih]
    by_cases owner : production.lhs = nonterminal
    · by_cases same : head = lookahead
      · simp [Prediction.isAt, owner, same]
      · simp [Prediction.isAt, owner, same, Ne.symm same]
    · simp [Prediction.isAt, owner]

theorem find?_predictions :
    (grammar.predictions first follow).find? (Prediction.isAt nonterminal lookahead) =
      (grammar.entrants first follow nonterminal lookahead).head?.map (⟨·, lookahead⟩) := by
  unfold predictions entrants
  -- by the productions: each one either has the lookahead at the head or leaves it to the rest
  induction grammar.productions with
  | nil => rfl
  | cons production rest ih =>
    rw [List.flatMap_cons, List.find?_append, find?_lookaheads, ih, List.filter_cons]
    by_cases entered : production.lhs = nonterminal ∧
        lookahead ∈ grammar.lookaheadsOf first follow production
    · simp [entered]
    · simp [entered]

theorem productions_in_order :
    grammar.productions.Pairwise fun left right =>
      grammar.position left.id ≤ grammar.position right.id := by
  have place : ∀ (index : Nat) (inside : index < grammar.productions.length),
      grammar.position (grammar.productions[index]).id = index := by
    intro index inside
    have found := grammar.ids_nodup.idxOf_getElem index (by simpa using inside)
    rwa [List.getElem_map] at found
  rw [List.pairwise_iff_getElem]
  intro early late first second less
  rw [place early first, place late second]
  exact Nat.le_of_lt less

theorem predictions_in_order :
    (grammar.predictions first follow).Pairwise fun left right =>
      grammar.position left.production.id ≤ grammar.position right.production.id := by
  unfold predictions
  rw [List.pairwise_flatMap]
  constructor
  · intro production _
    exact List.pairwise_map.mpr (List.pairwise_of_forall fun _ _ => Nat.le_refl _)
  · refine grammar.productions_in_order.imp ?_
    intro left right order early fromLeft late fromRight
    obtain ⟨_, _, rfl⟩ := List.mem_map.mp fromLeft
    obtain ⟨_, _, rfl⟩ := List.mem_map.mp fromRight
    exact order

end Grammar

namespace Prediction

variable {grammar : Grammar} {cells : List Cell} {prediction : Prediction} {conflict : Conflict}

theorem conflict?_eq_some :
    prediction.conflict? grammar cells = some conflict ↔
      ∃ kept, Cell.lookup? cells prediction.production.lhs prediction.lookahead = some kept ∧
        kept ≠ prediction.production.id ∧
        conflict = ⟨prediction.production.lhs, prediction.lookahead, kept, prediction.production.id,
          grammar.productionText kept ++ " vs " ++ prediction.production.text⟩ := by
  unfold conflict?
  rw [Option.bind_eq_some_iff]
  refine exists_congr fun kept => and_congr_right fun _ => ?_
  by_cases own : kept = prediction.production.id
  · simp [own]
  · simp [own, eq_comm]

end Prediction

namespace Grammar

variable {grammar : Grammar} {strategy : Strategy} {nonterminal lookahead : Symbol}

theorem at?_parseTable_eq_head? :
    (grammar.parseTable strategy).at? nonterminal lookahead =
      (grammar.entrants (grammar.firstSets strategy) (grammar.followAssignment strategy)
        nonterminal lookahead).head?.map Production.id := by
  rw [at?_parseTable, find?_predictions, Option.map_map]
  rfl

theorem conflicts_parseTable :
    (grammar.parseTable strategy).conflicts =
      (grammar.predictions (grammar.firstSets strategy) (grammar.followAssignment strategy)).filterMap
        (Prediction.conflict? grammar (grammar.parseTable strategy).cells) := by
  unfold parseTable filling
  rw [Filling.conflicts_predict]
  rfl

theorem conflicts_in_order :
    ((grammar.parseTable strategy).conflicts.map
      fun conflict => grammar.position conflict.rejectedId).Pairwise (· ≤ ·) := by
  rw [conflicts_parseTable, List.pairwise_map, List.pairwise_filterMap]
  refine predictions_in_order.imp ?_
  intro left right order early fromLeft late fromRight
  obtain ⟨_, _, _, rfl⟩ := Prediction.conflict?_eq_some.mp fromLeft
  obtain ⟨_, _, _, rfl⟩ := Prediction.conflict?_eq_some.mp fromRight
  exact order

/-- A conflict names the first entrant of its cell and one of the others. -/
theorem mem_conflicts_parseTable {kept rejected : Int} :
    (nonterminal, lookahead, kept, rejected) ∈
        (grammar.parseTable strategy).conflicts.map Conflict.parties ↔
      ∃ first rest, grammar.entrants (grammar.firstSets strategy)
          (grammar.followAssignment strategy) nonterminal lookahead = first :: rest ∧
        first.id = kept ∧ ∃ later ∈ rest, later.id = rejected := by
  have held : (grammar.parseTable strategy).at? nonterminal lookahead = _ :=
    at?_parseTable_eq_head?
  constructor
  · intro member
    obtain ⟨conflict, reported, same⟩ := List.mem_map.mp member
    rw [conflicts_parseTable] at reported
    obtain ⟨⟨production, other⟩, predicted, raised⟩ := List.mem_filterMap.mp reported
    obtain ⟨holder, filled, different, rfl⟩ := Prediction.conflict?_eq_some.mp raised
    obtain ⟨rfl, rfl, rfl, rfl⟩ : production.lhs = nonterminal ∧ other = lookahead ∧
        holder = kept ∧ production.id = rejected := by
      simpa [Conflict.parties] using same
    obtain ⟨declared, inside⟩ := mem_predictions.mp predicted
    have entered := mem_entrants.mpr ⟨declared, rfl, inside⟩
    change (grammar.parseTable strategy).at? production.lhs other = some holder at filled
    rw [filled] at held
    -- the cell is held by the first entrant, which is not the production that was refused
    cases entrants : grammar.entrants (grammar.firstSets strategy)
        (grammar.followAssignment strategy) production.lhs other with
    | nil => simp [entrants] at entered
    | cons first rest =>
      rw [entrants] at held entered
      have holds : holder = first.id := by simpa using held
      refine ⟨first, rest, rfl, holds.symm, production, ?_, rfl⟩
      rcases List.mem_cons.mp entered with rfl | later
      · exact absurd holds different
      · exact later
  · rintro ⟨first, rest, entrants, rfl, production, later, rfl⟩
    have entered : production ∈ grammar.entrants (grammar.firstSets strategy)
        (grammar.followAssignment strategy) nonterminal lookahead := by
      rw [entrants]
      exact List.mem_cons_of_mem _ later
    obtain ⟨declared, rfl, inside⟩ := mem_entrants.mp entered
    have distinct : ((grammar.entrants (grammar.firstSets strategy)
        (grammar.followAssignment strategy) production.lhs lookahead).map Production.id).Nodup :=
      entrants_ids_nodup
    rw [entrants] at distinct held
    -- a later entrant has another identity, so it was refused the cell
    have different : first.id ≠ production.id := by
      intro same
      apply (List.nodup_cons.mp distinct).1
      rw [same]
      exact List.mem_map.mpr ⟨production, later, rfl⟩
    rw [conflicts_parseTable]
    refine List.mem_map.mpr ⟨_, List.mem_filterMap.mpr ⟨⟨production, lookahead⟩,
      mem_predictions.mpr ⟨declared, inside⟩,
      Prediction.conflict?_eq_some.mpr ⟨first.id, held, different, rfl⟩⟩, rfl⟩

/-- A table has no conflicts if and only if no two productions of a non-terminal are entered for
the same lookahead. -/
theorem isLL1_parseTable :
    (grammar.parseTable strategy).isLL1 = true ↔
      ∀ left ∈ grammar.productions, ∀ right ∈ grammar.productions, left ≠ right →
        left.lhs = right.lhs → ∀ lookahead,
          ¬ (lookahead ∈ grammar.lookaheadsOf (grammar.firstSets strategy)
              (grammar.followAssignment strategy) left ∧
            lookahead ∈ grammar.lookaheadsOf (grammar.firstSets strategy)
              (grammar.followAssignment strategy) right) := by
  constructor
  · rintro clean left declared right other different owner lookahead ⟨first, second⟩
    have leftCell := at?_parseTable_of_isLL1 clean declared first
    have rightCell := at?_parseTable_of_isLL1 clean other second
    rw [owner, rightCell] at leftCell
    exact different (eq_of_id_eq declared other (Option.some.inj leftCell).symm)
  · intro disjoint
    refine List.isEmpty_iff.mpr ?_
    rw [conflicts_parseTable, List.filterMap_eq_nil_iff]
    rintro ⟨production, lookahead⟩ predicted
    obtain ⟨declared, inside⟩ := mem_predictions.mp predicted
    rw [Option.eq_none_iff_forall_ne_some]
    intro conflict raised
    -- the production in the cell is entered for the same lookahead
    obtain ⟨kept, filled, different, _⟩ := Prediction.conflict?_eq_some.mp raised
    obtain ⟨holder, known, rfl, owner, entered⟩ := exists_of_at?_parseTable filled
    refine disjoint holder known production declared ?_ owner lookahead ⟨entered, inside⟩
    exact fun same => different (congrArg Production.id same)

end Grammar

/-! ### The predictions of a session -/

theorem Grammar.mapM_resolve_exact (grammar : Grammar) (symbols : List Symbol) :
    (symbols.map SymbolReference.exact).mapM grammar.resolve = .ok symbols := by
  induction symbols with
  | nil => rfl
  | cons symbol rest ih =>
    rw [List.map_cons, List.mapM_cons, ih]
    rfl

namespace Session

/-- Whether a lookahead is predicted for a production by the sets that a session answers with: it
is in FIRST of the right-hand side or, if that can be empty, in FOLLOW of the left-hand side. -/
def predicts (session : Session) (production : Production) (lookahead : Symbol) : Bool :=
  match (session.sequence (production.rhs.map .exact) true).1,
      (session.followOf (.exact production.lhs)).1 with
  | .ok found, .ok follow =>
    (lookahead ∈ found && lookahead ≠ .epsilon) || (.epsilon ∈ found && lookahead ∈ follow)
  | _, _ => false

/-- The productions of a non-terminal that predict a lookahead, in declaration order. -/
def predictors (session : Session) (nonterminal lookahead : Symbol) : List Production :=
  session.grammar.productions.filter fun production =>
    production.lhs = nonterminal && session.predicts production lookahead

variable {session : Session} {production : Production} {nonterminal lookahead : Symbol}

/-- The sets of a declared production are answered, so nothing that they predict is missed. -/
theorem Coherent.sets_answer (coherent : session.Coherent)
    (declared : production ∈ session.grammar.productions) :
    (session.sequence (production.rhs.map .exact) true).1 =
        .ok (firstOfSequence (session.grammar.firstSets session.strategy) production.rhs) ∧
      (session.followOf (.exact production.lhs)).1 =
        .ok ((session.grammar.followAssignment session.strategy).get production.lhs) :=
  ⟨coherent.sequence_answer (session.grammar.mapM_resolve_exact production.rhs)
      (fun _ => Grammar.mem_nonTerminals_of_rhs declared) true,
    coherent.followOf_answer rfl (Grammar.lhs_mem_nonTerminals declared)⟩

theorem Coherent.predicts_iff (coherent : session.Coherent)
    (declared : production ∈ session.grammar.productions) :
    session.predicts production lookahead = true ↔
      lookahead ∈ session.grammar.lookaheadsOf (session.grammar.firstSets session.strategy)
        (session.grammar.followAssignment session.strategy) production := by
  obtain ⟨first, follow⟩ := coherent.sets_answer declared
  unfold predicts
  rw [first, follow, Grammar.mem_lookaheadsOf]
  simp

theorem Coherent.predictors_eq (coherent : session.Coherent) :
    session.predictors nonterminal lookahead =
      session.grammar.entrants (session.grammar.firstSets session.strategy)
        (session.grammar.followAssignment session.strategy) nonterminal lookahead := by
  refine List.filter_congr fun production declared => ?_
  rw [Bool.eq_iff_iff, Bool.and_eq_true, Bool.and_eq_true, coherent.predicts_iff declared]
  simp

/-- A table under either strategy, whatever was asked before: a cell holds the first production
that predicts its lookahead, the conflicts are those of the first with each later one in the order
of the later ones, and there are none exactly if no lookahead is predicted twice. -/
theorem table_predicts_exactly (grammar : Grammar) (strategy : Strategy)
    (requests : List Request) :
    let session := (new grammar strategy).after requests
    let table := session.table.1
    (∀ production ∈ grammar.productions, ∃ found follow,
        (session.sequence (production.rhs.map .exact) true).1 = .ok found ∧
        (session.followOf (.exact production.lhs)).1 = .ok follow ∧
        ∀ lookahead, session.predicts production lookahead = true ↔
          (lookahead ∈ found ∧ lookahead ≠ .epsilon) ∨ (.epsilon ∈ found ∧ lookahead ∈ follow)) ∧
      (∀ nonterminal lookahead, table.at? nonterminal lookahead =
        (session.predictors nonterminal lookahead).head?.map Production.id) ∧
      (∀ nonterminal lookahead kept rejected,
        (nonterminal, lookahead, kept, rejected) ∈ table.conflicts.map Conflict.parties ↔
          ∃ first rest, session.predictors nonterminal lookahead = first :: rest ∧
            first.id = kept ∧ ∃ later ∈ rest, later.id = rejected) ∧
      (table.conflicts.map fun conflict => grammar.position conflict.rejectedId).Pairwise (· ≤ ·) ∧
      (table.isLL1 = true ↔ ∀ left ∈ grammar.productions, ∀ right ∈ grammar.productions,
        left ≠ right → left.lhs = right.lhs → ∀ lookahead,
          ¬ (session.predicts left lookahead = true ∧ session.predicts right lookahead = true)) := by
  intro session table
  have continues := continues_new grammar strategy requests
  have coherent : session.Coherent := continues.coherent
  have same : session.grammar = grammar := continues.grammar
  have filled : table = session.grammar.parseTable session.strategy := coherent.table_eq
  rw [filled, ← same]
  refine ⟨?_, ?_, ?_, Grammar.conflicts_in_order, ?_⟩
  · intro production declared
    obtain ⟨first, follow⟩ := coherent.sets_answer declared
    refine ⟨_, _, first, follow, fun lookahead => ?_⟩
    rw [coherent.predicts_iff declared, Grammar.mem_lookaheadsOf]
  · intro nonterminal lookahead
    rw [coherent.predictors_eq]
    exact Grammar.at?_parseTable_eq_head?
  · intro nonterminal lookahead kept rejected
    rw [coherent.predictors_eq]
    exact Grammar.mem_conflicts_parseTable
  · rw [Grammar.isLL1_parseTable]
    refine forall₂_congr fun left declared => forall₂_congr fun right other => ?_
    simp only [coherent.predicts_iff declared, coherent.predicts_iff other]

end Session

end Predictive
