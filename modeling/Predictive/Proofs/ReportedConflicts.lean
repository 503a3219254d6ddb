import Predictive.Proofs.Conflicts
import Predictive.Workflow.Answer
import Mathlib.Algebra.BigOperators.Group.List.Lemmas
import Mathlib.Data.Finset.Card
import Mathlib.Data.List.Permutation

/-! How often a conflict is reported. A production is entered for the lookaheads of its right-hand
side and, if that can be empty, once more for those that follow its left-hand side. Where it owns
the cell the second entry changes nothing; where it was refused the cell, it is refused again, and
the same conflict stands in the list twice. -/

set_option autoImplicit false

namespace Predictive

/-- The cell of a conflict and the production that was refused it. -/
def Conflict.refusal (conflict : Conflict) : Symbol × Symbol × Int :=
  (conflict.nonterminal, conflict.lookahead, conflict.rejectedId)

/-- The refusals that the conflicts of a table report, each of them once. -/
def ParseTable.refusals (table : ParseTable) : Finset (Symbol × Symbol × Int) :=
  (table.conflicts.map Conflict.refusal).toFinset

/-! ### How often a production is entered -/

namespace Grammar

variable {grammar : Grammar} {first follow : Assignment} {production : Production}
  {lookahead : Symbol}

theorem sortSymbols_perm (symbols : List Symbol) : (grammar.sortSymbols symbols).Perm symbols := by
  unfold sortSymbols
  have sorted := (List.mergeSort_perm
    (symbols.map fun symbol => (grammar.symbols.idxOf symbol, symbol)) fun left right =>
      left.1 < right.1 || (left.1 == right.1 && left.2.name ≤ right.2.name)).map Prod.snd
  rwa [List.map_map, List.map_id''] at sorted
  intro symbol
  rfl

theorem count_sortSymbols (set : SymbolSet) :
    (grammar.sortSymbols set.elements).count lookahead = if lookahead ∈ set then 1 else 0 := by
  rw [(sortSymbols_perm set.elements).count_eq, set.nodup.count]
  rfl

/-- A production is entered once for a lookahead that begins its right-hand side, and once for one
behind its left-hand side if the right-hand side can be empty. -/
theorem count_lookaheadsOf :
    (grammar.lookaheadsOf first follow production).count lookahead =
      (if lookahead ∈ firstOfSequence first production.rhs ∧ lookahead ≠ .epsilon then 1 else 0) +
        (if .epsilon ∈ firstOfSequence first production.rhs ∧
          lookahead ∈ follow.get production.lhs then 1 else 0) := by
  unfold lookaheadsOf
  dsimp only
  rw [List.count_append, count_sortSymbols]
  congr 1
  · simp only [SymbolSet.mem_without]
  · by_cases empty : .epsilon ∈ firstOfSequence first production.rhs
    · simp only [empty, if_true, true_and, count_sortSymbols]
    · simp [empty]

theorem count_lookaheadsOf_le :
    (grammar.lookaheadsOf first follow production).count lookahead ≤ 2 := by
  rw [count_lookaheadsOf]
  split <;> split <;> omega

theorem productions_nodup (grammar : Grammar) : grammar.productions.Nodup :=
  .of_map _ grammar.ids_nodup

theorem count_predictions (declared : production ∈ grammar.productions) :
    (grammar.predictions first follow).count ⟨production, lookahead⟩ =
      (grammar.lookaheadsOf first follow production).count lookahead := by
  -- the entries of every other production are of another kind
  have apart : ∀ other, other ≠ production → other ∈ grammar.productions →
      ((grammar.lookaheadsOf first follow other).map (Prediction.mk other)).count
        ⟨production, lookahead⟩ = 0 := by
    intro other different _
    rw [List.count_eq_zero, List.mem_map]
    rintro ⟨_, _, same⟩
    exact different (congrArg Prediction.production same)
  have own : Function.Injective (Prediction.mk production) := by
    intro left right same
    exact congrArg Prediction.lookahead same
  unfold predictions
  rw [List.count_flatMap]
  have collected := List.sum_map_eq_nsmul_single production _ apart
  rw [List.count_eq_one_of_mem grammar.productions_nodup declared, one_nsmul,
    List.count_map_of_injective _ _ own] at collected
  exact collected

end Grammar

/-! ### How often it is refused -/

namespace Grammar

variable {grammar : Grammar} {strategy : Strategy} {production : Production} {lookahead : Symbol}

/-- A conflict of a table says which declared production was refused, and what it found. -/
theorem exists_of_mem_conflicts {conflict : Conflict}
    (reported : conflict ∈ (grammar.parseTable strategy).conflicts) :
    ∃ production ∈ grammar.productions, ∃ lookahead kept,
      (grammar.parseTable strategy).at? production.lhs lookahead = some kept ∧
        kept ≠ production.id ∧
        conflict = ⟨production.lhs, lookahead, kept, production.id,
          grammar.productionText kept ++ " vs " ++ production.text⟩ := by
  rw [conflicts_parseTable] at reported
  obtain ⟨⟨production, lookahead⟩, predicted, raised⟩ := List.mem_filterMap.mp reported
  obtain ⟨kept, filled, different, rfl⟩ := Prediction.conflict?_eq_some.mp raised
  exact ⟨production, (mem_predictions.mp predicted).1, lookahead, kept, filled, different, rfl⟩

/-- What was kept and what is written about a conflict follow from the refusal. -/
theorem eq_of_refusal_eq {left right : Conflict}
    (first : left ∈ (grammar.parseTable strategy).conflicts)
    (second : right ∈ (grammar.parseTable strategy).conflicts)
    (same : left.refusal = right.refusal) : left = right := by
  obtain ⟨production, declared, lookahead, kept, filled, _, rfl⟩ := exists_of_mem_conflicts first
  obtain ⟨other, known, _, _, found, _, rfl⟩ := exists_of_mem_conflicts second
  obtain ⟨_, rfl, sameId⟩ :
      production.lhs = other.lhs ∧ lookahead = _ ∧ production.id = other.id := by
    simpa [Conflict.refusal] using same
  obtain rfl : production = other := eq_of_id_eq declared known sameId
  obtain rfl : kept = _ := Option.some.inj (filled.symm.trans found)
  rfl

/-- A prediction of a table is refused if and only if its cell holds another production. -/
theorem isSome_conflict? {prediction : Prediction}
    (predicted : prediction ∈ grammar.predictions (grammar.firstSets strategy)
      (grammar.followAssignment strategy)) :
    (prediction.conflict? grammar (grammar.parseTable strategy).cells).isSome = true ↔
      (grammar.parseTable strategy).at? prediction.production.lhs prediction.lookahead ≠
        some prediction.production.id := by
  have entered : prediction.production ∈ grammar.entrants (grammar.firstSets strategy)
      (grammar.followAssignment strategy) prediction.production.lhs prediction.lookahead := by
    obtain ⟨declared, inside⟩ := mem_predictions.mp predicted
    exact mem_entrants.mpr ⟨declared, rfl, inside⟩
  cases filled : (grammar.parseTable strategy).at? prediction.production.lhs
      prediction.lookahead with
  | none =>
    -- a cell that something is entered for is not empty
    rw [at?_parseTable_eq_head?, Option.map_eq_none_iff, List.head?_eq_none_iff] at filled
    rw [filled] at entered
    cases entered
  | some kept =>
    change Cell.lookup? (grammar.parseTable strategy).cells prediction.production.lhs
      prediction.lookahead = some kept at filled
    by_cases own : kept = prediction.production.id
    · simp [Prediction.conflict?, filled, own]
    · simp [Prediction.conflict?, filled, own]

/-- The refusal of a production for a lookahead comes from that prediction, where it is refused. -/
theorem map_refusal_conflict? (declared : production ∈ grammar.productions)
    {prediction : Prediction}
    (predicted : prediction ∈ grammar.predictions (grammar.firstSets strategy)
      (grammar.followAssignment strategy)) :
    (prediction.conflict? grammar (grammar.parseTable strategy).cells).map Conflict.refusal =
        some (production.lhs, lookahead, production.id) ↔
      prediction = ⟨production, lookahead⟩ ∧
        (grammar.parseTable strategy).at? production.lhs lookahead ≠ some production.id := by
  constructor
  · intro reported
    obtain ⟨conflict, raised, same⟩ := Option.map_eq_some_iff.mp reported
    have refused := (isSome_conflict? predicted).mp (Option.isSome_of_eq_some raised)
    obtain ⟨kept, _, _, rfl⟩ := Prediction.conflict?_eq_some.mp raised
    obtain ⟨_, sameLookahead, sameId⟩ : prediction.production.lhs = production.lhs ∧
        prediction.lookahead = lookahead ∧ prediction.production.id = production.id := by
      simpa [Conflict.refusal] using same
    have sameProduction : prediction.production = production :=
      eq_of_id_eq (mem_predictions.mp predicted).1 declared sameId
    subst sameProduction sameLookahead
    exact ⟨rfl, refused⟩
  · rintro ⟨rfl, refused⟩
    obtain ⟨conflict, raised⟩ :=
      Option.isSome_iff_exists.mp ((isSome_conflict? predicted).mpr refused)
    obtain ⟨kept, _, _, rfl⟩ := Prediction.conflict?_eq_some.mp raised
    rw [raised]
    rfl

/-- A production is refused a cell as often as it is entered for it, unless the cell is its own. -/
theorem count_refusal (declared : production ∈ grammar.productions) :
    ((grammar.parseTable strategy).conflicts.map Conflict.refusal).count
        (production.lhs, lookahead, production.id) =
      if (grammar.parseTable strategy).at? production.lhs lookahead = some production.id then 0
      else (grammar.lookaheadsOf (grammar.firstSets strategy) (grammar.followAssignment strategy)
        production).count lookahead := by
  rw [conflicts_parseTable, List.map_filterMap, List.count_filterMap]
  split
  · next own =>
    rw [List.countP_eq_zero]
    intro prediction predicted reported
    exact ((map_refusal_conflict? declared predicted).mp (beq_iff_eq.mp reported)).2 own
  · next other =>
    rw [← count_predictions declared, List.count_eq_countP]
    refine List.countP_congr fun prediction predicted => ?_
    rw [beq_iff_eq, beq_iff_eq, map_refusal_conflict? declared predicted]
    exact and_iff_left other

/-- The conflicts are without repetition if and only if no production is entered twice for a cell
that another one holds. -/
theorem conflicts_nodup_iff :
    (grammar.parseTable strategy).conflicts.Nodup ↔
      ∀ production ∈ grammar.productions, ∀ lookahead,
        (grammar.lookaheadsOf (grammar.firstSets strategy) (grammar.followAssignment strategy)
          production).count lookahead = 2 →
        (grammar.parseTable strategy).at? production.lhs lookahead = some production.id := by
  constructor
  · intro nodup production declared lookahead twice
    by_contra other
    have refusals := nodup.map_on fun _ first _ second => eq_of_refusal_eq first second
    have once := List.nodup_iff_count_le_one.mp refusals (production.lhs, lookahead, production.id)
    rw [count_refusal declared, if_neg other, twice] at once
    omega
  · intro owned
    refine List.Nodup.of_map Conflict.refusal (List.nodup_iff_count_le_one.mpr fun refusal => ?_)
    by_cases reported : refusal ∈ (grammar.parseTable strategy).conflicts.map Conflict.refusal
    · obtain ⟨conflict, member, rfl⟩ := List.mem_map.mp reported
      obtain ⟨production, declared, lookahead, _, _, _, rfl⟩ := exists_of_mem_conflicts member
      change List.count (production.lhs, lookahead, production.id) _ ≤ 1
      rw [count_refusal declared]
      split
      · omega
      · next other =>
        have single := mt (owned production declared lookahead) other
        have bound : (grammar.lookaheadsOf (grammar.firstSets strategy)
            (grammar.followAssignment strategy) production).count lookahead ≤ 2 :=
          count_lookaheadsOf_le
        omega
    · rw [List.count_eq_zero.mpr reported]
      omega

end Grammar

/-! ### The numbers that are shown -/

theorem exists_intercalate_cons (separator first : String) (rest : List String) :
    ∃ behind, separator.intercalate (first :: rest) = first ++ behind := by
  cases rest with
  | nil => exact ⟨"", by simp⟩
  | cons next more => exact ⟨_, by rw [String.intercalate_cons_cons, String.append_assoc]⟩

/-- The number of conflicts that an analysis shows in its report, in the facts about its table, and
in its list of conflicts. -/
structure Analysis.ShowsConflicts (analysis : Analysis) (shown : Nat) : Prop where
  report : analysis.isLL1 = false → ∃ listed,
    analysis.report = "Found " ++ toString shown ++ " conflict(s) in the parse table:\n" ++ listed
  fact : analysis.tableInfoJson.get? "conflicts_count" = some (.natural shown)
  heading : analysis.isLL1 = false → ∀ options, ∃ items,
    conflictsHtml options analysis.conflicts =
      styled options (.block "div" [("class", "conflict-report")]
        (.line "h4" [] ("Grammar Conflicts (" ++ toString shown ++ " found)") :: items))

namespace Analysis

variable {analysis : Analysis} {shown : Nat}

theorem showsConflicts_iff : analysis.ShowsConflicts shown ↔ shown = analysis.conflicts.length := by
  constructor
  · intro shows
    have same : Json.natural analysis.conflicts.length = .natural shown :=
      Option.some.inj shows.fact
    have numbers : (analysis.conflicts.length : Int) = shown := Json.integer.inj same
    omega
  · rintro rfl
    refine ⟨fun conflicting => ?_, rfl, fun conflicting options => ?_⟩
    · unfold report ParseTable.report
      change analysis.table.isLL1 = false at conflicting
      rw [conflicting, if_neg (by simp)]
      exact exists_intercalate_cons _ _ _
    · unfold conflictsHtml
      change analysis.conflicts.isEmpty = false at conflicting
      rw [conflicting]
      exact ⟨_, rfl⟩

/-- The refusals are counted rightly if and only if none of them is reported twice. -/
theorem showsConflicts_card :
    analysis.ShowsConflicts analysis.table.refusals.card ↔
      (analysis.table.conflicts.map Conflict.refusal).Nodup := by
  rw [showsConflicts_iff, ParseTable.refusals, List.card_toFinset, ← List.dedup_eq_self]
  constructor
  · intro counted
    apply (List.dedup_sublist _).eq_of_length
    rw [List.length_map]
    exact counted
  · intro same
    rw [same, List.length_map]
    rfl

end Analysis

/-! ### The conflicts of a session -/

namespace Session

/-- How often a production is entered for a lookahead by the sets that a session answers with: once
if the lookahead is in FIRST of the right-hand side, and once if it is in FOLLOW of the left-hand
side and the right-hand side can be empty. -/
def entries (session : Session) (production : Production) (lookahead : Symbol) : Nat :=
  match (session.sequence (production.rhs.map .exact) true).1,
      (session.followOf (.exact production.lhs)).1 with
  | .ok found, .ok follow =>
    (if lookahead ∈ found ∧ lookahead ≠ .epsilon then 1 else 0) +
      (if .epsilon ∈ found ∧ lookahead ∈ follow then 1 else 0)
  | _, _ => 0

variable {session : Session} {production : Production}

theorem Coherent.entries_eq (coherent : session.Coherent)
    (declared : production ∈ session.grammar.productions) (lookahead : Symbol) :
    session.entries production lookahead =
      (session.grammar.lookaheadsOf (session.grammar.firstSets session.strategy)
        (session.grammar.followAssignment session.strategy) production).count lookahead := by
  obtain ⟨first, follow⟩ := coherent.sets_answer declared
  unfold entries
  rw [first, follow, Grammar.count_lookaheadsOf]

/-- The conflicts of a table under either strategy, whatever was asked before. A production is
refused a cell that another one holds as often as it is entered for it, and all its refusals there
are one conflict. So the list is without repetition, and the numbers that are shown count the
refused productions of each cell, if and only if a production that is entered twice for a lookahead
always holds the cell. -/
theorem conflicts_repeat_exactly (grammar : Grammar) (strategy : Strategy)
    (requests : List Request) :
    let session := (new grammar strategy).after requests
    let table := session.table.1
    (∀ production ∈ grammar.productions, ∃ found follow,
        (session.sequence (production.rhs.map .exact) true).1 = .ok found ∧
        (session.followOf (.exact production.lhs)).1 = .ok follow ∧
        ∀ lookahead, session.entries production lookahead =
          (if lookahead ∈ found ∧ lookahead ≠ .epsilon then 1 else 0) +
            (if .epsilon ∈ found ∧ lookahead ∈ follow then 1 else 0)) ∧
      (∀ production ∈ grammar.productions, ∀ lookahead,
        (table.conflicts.map Conflict.refusal).count (production.lhs, lookahead, production.id) =
          if table.at? production.lhs lookahead = some production.id then 0
          else session.entries production lookahead) ∧
      (∀ left ∈ table.conflicts, ∀ right ∈ table.conflicts,
        left.refusal = right.refusal → left = right) ∧
      (table.conflicts.Nodup ↔ ∀ production ∈ grammar.productions, ∀ lookahead,
        session.entries production lookahead = 2 →
          table.at? production.lhs lookahead = some production.id) ∧
      ∀ analysis : Analysis, analysis.table = table →
        (analysis.ShowsConflicts table.refusals.card ↔ table.conflicts.Nodup) := by
  intro session table
  have continues := continues_new grammar strategy requests
  have coherent : session.Coherent := continues.coherent
  have same : session.grammar = grammar := continues.grammar
  have filled : table = session.grammar.parseTable session.strategy := coherent.table_eq
  rw [filled, ← same]
  refine ⟨?_, ?_, ?_, ?_, ?_⟩
  · intro production declared
    obtain ⟨first, follow⟩ := coherent.sets_answer declared
    refine ⟨_, _, first, follow, fun lookahead => ?_⟩
    rw [coherent.entries_eq declared, Grammar.count_lookaheadsOf]
  · intro production declared lookahead
    rw [coherent.entries_eq declared]
    exact Grammar.count_refusal declared
  · intro left first right second
    exact Grammar.eq_of_refusal_eq first second
  · rw [Grammar.conflicts_nodup_iff]
    refine forall₂_congr fun production declared => forall_congr' fun lookahead => ?_
    rw [coherent.entries_eq declared]
  · intro analysis shared
    rw [← shared, Analysis.showsConflicts_card]
    -- equal refusals are one conflict, so either list is without repetition if the other one is
    constructor
    · exact List.Nodup.of_map _
    · rw [shared]
      exact List.Nodup.map_on fun left first right second =>
        Grammar.eq_of_refusal_eq first second

end Session

/-- Sequences of one letter, in which any two sequences may be put together. -/
def ambiguousSample : Grammar where
  productions :=
    [⟨1, .nonterminal "S", [.epsilon]⟩,
     ⟨2, .nonterminal "S", [.terminal "a"]⟩,
     ⟨3, .nonterminal "S", [.nonterminal "S", .nonterminal "S"]⟩]
  start := .nonterminal "S"
  sound := by decide

namespace Analysis

/-- A production that can be empty, or begin with what follows it, is refused one cell twice. -/
theorem refused_production_reported_twice :
    ¬ ∀ (grammar : Grammar) (strategy : Strategy), (new grammar strategy).conflicts.Nodup := by
  intro claimed
  have reported : (new ambiguousSample .fixedPoint).conflicts =
      [⟨.nonterminal "S", .terminal "a", 1, 2, "S -> ε vs S -> a"⟩,
       ⟨.nonterminal "S", .terminal "a", 1, 3, "S -> ε vs S -> S S"⟩,
       ⟨.nonterminal "S", .terminal "a", 1, 3, "S -> ε vs S -> S S"⟩,
       ⟨.nonterminal "S", .endOfInput, 1, 3, "S -> ε vs S -> S S"⟩] := by cbv
  have once := claimed ambiguousSample .fixedPoint
  rw [reported] at once
  exact absurd once (by decide)

end Analysis

end Predictive
