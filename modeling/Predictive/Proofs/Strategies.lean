import Predictive.Proofs.Predictions
import Predictive.Proofs.ExactSets
import Predictive.Proofs.FirstDescent
import Predictive.Proofs.FollowRounds

/-! The two strategies side by side. The sets of the descents lie within those of the passes; and
without left recursion the strategies find the same sets, enter the same productions for the same
lookaheads in the same order, and so build the same table. -/

set_option autoImplicit false

namespace Predictive

theorem SymbolSet.elements_perm {left right : SymbolSet}
    (same : ∀ symbol, symbol ∈ left ↔ symbol ∈ right) : left.elements.Perm right.elements :=
  (List.perm_ext_iff_of_nodup left.nodup right.nodup).mpr same

namespace Grammar

variable (grammar : Grammar)

/-! ### Sorting -/

/-- The symbols that sets can hold: those with a rank of their own, and other names for the empty
string, which their names keep apart. -/
def Sortable (symbol : Symbol) : Prop :=
  symbol ∈ grammar.symbols ∨ symbol.kind = .epsilon

variable {grammar} {symbol other : Symbol}

theorem sortable_of_mem_rhsLeaves (member : symbol ∈ grammar.rhsLeaves) :
    grammar.Sortable symbol := by
  obtain ⟨⟨production, declared, written⟩, leaf, _⟩ := grammar.mem_rhsLeaves.mp member
  cases kind : symbol.kind with
  | terminal =>
    have listed : symbol ∈ grammar.terminals := by
      simpa [terminals, rhsTerminals, Symbol.isTerminal, kind] using ⟨production, declared, written⟩
    exact .inl (by simp [symbols, listed])
  | nonterminal => simp [Symbol.isNonterminal, kind] at leaf
  | epsilon => exact .inr kind
  | endOfInput => exact absurd kind (kind_ne_endOfInput declared written)

theorem Sortable.eq (sortable : grammar.Sortable symbol) (others : grammar.Sortable other)
    (rank : grammar.symbols.idxOf symbol = grammar.symbols.idxOf other)
    (name : symbol.name = other.name) : symbol = other := by
  rcases sortable with listed | kind
  · exact (List.idxOf_inj listed).mp rank
  · rcases others with listed | same
    · exact ((List.idxOf_inj listed).mp rank.symm).symm
    · cases symbol
      cases other
      simp_all

/-- The order by which symbols are sorted, each with its rank. -/
def precedes (left right : Nat × Symbol) : Bool :=
  left.1 < right.1 || (left.1 == right.1 && left.2.name ≤ right.2.name)

theorem precedes_iff {left right : Nat × Symbol} :
    precedes left right = true ↔
      left.1 < right.1 ∨ (left.1 = right.1 ∧ left.2.name ≤ right.2.name) := by
  simp [precedes]

theorem precedes_trans (first second third : Nat × Symbol) (early : precedes first second = true)
    (late : precedes second third = true) : precedes first third = true := by
  rw [precedes_iff] at early late ⊢
  rcases early with less | ⟨same, before⟩
  · exact .inl (by omega)
  · rcases late with less | ⟨equal, behind⟩
    · exact .inl (by omega)
    · exact .inr ⟨same.trans equal, String.le_trans before behind⟩

theorem precedes_total (left right : Nat × Symbol) :
    (precedes left right || precedes right left) = true := by
  rw [Bool.or_eq_true, precedes_iff, precedes_iff]
  rcases Nat.lt_trichotomy left.1 right.1 with less | same | more
  · exact .inl (.inl less)
  · rcases String.le_total left.2.name right.2.name with before | behind
    · exact .inl (.inr ⟨same, before⟩)
    · exact .inr (.inr ⟨same.symm, behind⟩)
  · exact .inr (.inl more)

theorem precedes_antisymm {left right : Nat × Symbol} (early : precedes left right = true)
    (late : precedes right left = true) : left.1 = right.1 ∧ left.2.name = right.2.name := by
  rw [precedes_iff] at early late
  have rank : left.1 = right.1 := by omega
  rcases early with less | ⟨_, before⟩
  · omega
  · rcases late with less | ⟨_, behind⟩
    · omega
    · exact ⟨rank, String.le_antisymm before behind⟩

/-- The order of sorted symbols does not depend on the order in which they were collected. -/
theorem sortSymbols_eq_of_perm {left right : List Symbol} (perm : left.Perm right)
    (sortable : ∀ symbol ∈ left, grammar.Sortable symbol) :
    grammar.sortSymbols left = grammar.sortSymbols right := by
  let keyed := fun symbol => (grammar.symbols.idxOf symbol, symbol)
  have sorted (symbols : List Symbol) :=
    List.pairwise_mergeSort precedes_trans precedes_total (symbols.map keyed)
  have shuffled : ((left.map keyed).mergeSort precedes).Perm ((right.map keyed).mergeSort precedes) :=
    (List.mergeSort_perm _ _).trans ((perm.map keyed).trans (List.mergeSort_perm _ _).symm)
  refine congrArg (List.map Prod.snd) (List.Perm.eq_of_pairwise ?_ (sorted left) (sorted right) shuffled)
  -- two symbols that precede each other are one, as sets hold only what ranks and names tell apart
  intro first second fromLeft fromRight early late
  obtain ⟨symbol, member, rfl⟩ := List.mem_map.mp (List.mem_mergeSort.mp fromLeft)
  obtain ⟨other, counterpart, rfl⟩ := List.mem_map.mp (List.mem_mergeSort.mp fromRight)
  obtain ⟨rank, name⟩ := precedes_antisymm early late
  have same := (sortable symbol member).eq (sortable other (perm.mem_iff.mpr counterpart)) rank name
  rw [same]

/-! ### FOLLOW sets -/

/-- FOLLOW by passes from the larger FIRST sets is closed under the smaller ones. -/
theorem followAssignment_recursive_below :
    (grammar.followAssignment .recursive).Below (grammar.followAssignment .fixedPoint) :=
  (followByRecursion_least (.empty 0 0)).least _
    ((followByPasses_least (.empty 0 0)).closed.anti firstByRecursion_below)

theorem followAssignment_fixedPoint_below (free : ¬ grammar.LeftRecursive) :
    (grammar.followAssignment .fixedPoint).Below (grammar.followAssignment .recursive) :=
  (followByPasses_least (.empty 0 0)).least _
    ((followByRecursion_least (.empty 0 0)).closed.anti (firstByPasses_below free))

theorem mem_followRange_of_followAssignment {symbol element : Symbol}
    (member : element ∈ (grammar.followAssignment .fixedPoint).get symbol) :
    element ∈ grammar.followRange := by
  obtain ⟨_, reach⟩ := (followByPasses_ends (.empty 0 0)).1.reached symbol element member
  exact reach.mem_followRange grammar.firstByPasses_within

/-! ### The tables -/

theorem sortSymbols_elements {left right : SymbolSet}
    (same : ∀ symbol, symbol ∈ left ↔ symbol ∈ right)
    (sortable : ∀ symbol ∈ left, grammar.Sortable symbol) :
    grammar.sortSymbols left.elements = grammar.sortSymbols right.elements :=
  sortSymbols_eq_of_perm (SymbolSet.elements_perm same) sortable

/-- Assignments of the same sets predict the same lookaheads in the same order. -/
theorem lookaheadsOf_congr {first other follow behind : Assignment} {production : Production}
    (declared : production ∈ grammar.productions)
    (first_within : first.Within grammar.nonTerminals grammar.firstRange)
    (follow_within : ∀ symbol, ∀ element ∈ follow.get symbol, element ∈ grammar.followRange)
    (first_below : first.Below other) (first_above : other.Below first)
    (follow_below : follow.Below behind) (follow_above : behind.Below follow) :
    grammar.lookaheadsOf first follow production = grammar.lookaheadsOf other behind production := by
  have found : ∀ symbol, symbol ∈ firstOfSequence first production.rhs ↔
      symbol ∈ firstOfSequence other production.rhs := fun symbol =>
    ⟨firstOfSequence_mono first_below, firstOfSequence_mono first_above⟩
  have leading : grammar.sortSymbols ((firstOfSequence first production.rhs).without .epsilon).elements =
      grammar.sortSymbols ((firstOfSequence other production.rhs).without .epsilon).elements := by
    apply sortSymbols_elements
    · simp [found]
    · intro symbol member
      obtain ⟨inside, visible⟩ := SymbolSet.mem_without.mp member
      have range := grammar.firstOfSequence_within first_within (fun other written leaf =>
        grammar.mem_rhsLeaves.mpr ⟨⟨production, declared, written⟩, leaf⟩) inside
      exact sortable_of_mem_rhsLeaves (by simpa [firstRange, visible] using range)
  have trailing : grammar.sortSymbols (follow.get production.lhs).elements =
      grammar.sortSymbols (behind.get production.lhs).elements := by
    apply sortSymbols_elements
    · exact fun symbol => ⟨follow_below _ symbol, follow_above _ symbol⟩
    · intro symbol member
      rcases List.mem_append.mp (follow_within _ _ member) with leaf | ending
      · exact sortable_of_mem_rhsLeaves leaf
      · exact .inl (by simp [symbols, List.mem_singleton.mp ending])
  unfold lookaheadsOf
  dsimp only
  rw [leading, trailing]
  by_cases empty : .epsilon ∈ firstOfSequence first production.rhs
  · rw [if_pos empty, if_pos ((found _).mp empty)]
  · rw [if_neg empty, if_neg fun inside => empty ((found _).mpr inside)]

theorem predictions_eq (free : ¬ grammar.LeftRecursive) :
    grammar.predictions (grammar.firstSets .fixedPoint) (grammar.followAssignment .fixedPoint) =
      grammar.predictions (grammar.firstSets .recursive) (grammar.followAssignment .recursive) := by
  refine List.flatMap_congr fun production declared => congrArg (List.map _) ?_
  exact lookaheadsOf_congr declared grammar.firstByPasses_within
    (fun _ _ => mem_followRange_of_followAssignment)
    (firstByPasses_below free) firstByRecursion_below (followAssignment_fixedPoint_below free)
    followAssignment_recursive_below

/-- Without left recursion both strategies build one table. -/
theorem parseTable_eq (free : ¬ grammar.LeftRecursive) :
    grammar.parseTable .recursive = grammar.parseTable .fixedPoint := by
  unfold parseTable filling
  rw [predictions_eq free]

end Grammar

/-! ### Two sessions about one grammar -/

namespace Session

/-- What a session answers as a whole, whatever it was asked before. -/
theorem answers_after (grammar : Grammar) (strategy : Strategy) (requests : List Request) :
    ((new grammar strategy).after requests).firstSets.1 =
        ((grammar.nonTerminals ++ grammar.terminals).map fun symbol =>
          (symbol, (grammar.firstSets strategy).firstOf symbol)) ∧
      ((new grammar strategy).after requests).followSets.1 =
        (grammar.nonTerminals.map fun symbol =>
          (symbol, (grammar.followAssignment strategy).get symbol)) ∧
      ((new grammar strategy).after requests).table.1 = grammar.parseTable strategy := by
  have continues := continues_new grammar strategy requests
  have first := continues.coherent.firstSets_eq
  have follow := continues.coherent.followSets_eq
  have table := continues.coherent.table_eq
  rw [continues.grammar, continues.strategy] at first follow table
  exact ⟨first, follow, table⟩

/-- Of the same symbol, one set lies within the other. -/
def Inside (small large : Symbol × SymbolSet) : Prop :=
  small.1 = large.1 ∧ ∀ element ∈ small.2, element ∈ large.2

/-- Of the same symbol, both sets hold the same. -/
def Same (left right : Symbol × SymbolSet) : Prop :=
  left.1 = right.1 ∧ ∀ element, element ∈ left.2 ↔ element ∈ right.2

/-- Whatever two sessions about one grammar were asked before, the sets of the descents lie within
those of the passes; and without left recursion they are the same, and so are the cells of the
tables, the conflicts in their order, and the result of every parse. -/
theorem strategies_agree (grammar : Grammar) (asked others : List Request) :
    let passes := (new grammar .fixedPoint).after asked
    let descents := (new grammar .recursive).after others
    (List.Forall₂ Inside descents.firstSets.1 passes.firstSets.1 ∧
        List.Forall₂ Inside descents.followSets.1 passes.followSets.1) ∧
      (¬ grammar.LeftRecursive →
        List.Forall₂ Same descents.firstSets.1 passes.firstSets.1 ∧
        List.Forall₂ Same descents.followSets.1 passes.followSets.1 ∧
        descents.table.1.cells = passes.table.1.cells ∧
        descents.table.1.conflicts = passes.table.1.conflicts ∧
        ∀ limit names, descents.table.1.parseNames? limit names =
          passes.table.1.parseNames? limit names) := by
  intro passes descents
  obtain ⟨first, follow, table⟩ := answers_after grammar .fixedPoint asked
  obtain ⟨descents_first, descents_follow, descents_table⟩ :=
    answers_after grammar .recursive others
  rw [first, follow, table, descents_first, descents_follow, descents_table]
  simp only [List.forall₂_map_left_iff, List.forall₂_map_right_iff, List.forall₂_same]
  refine ⟨⟨?_, ?_⟩, ?_⟩
  · exact fun symbol _ => ⟨rfl, fun _ => firstOf_mono Grammar.firstByRecursion_below⟩
  · exact fun symbol _ => ⟨rfl, Grammar.followAssignment_recursive_below symbol⟩
  · intro free
    rw [Grammar.parseTable_eq free]
    refine ⟨?_, ?_, rfl, rfl, fun _ _ => rfl⟩
    · exact fun symbol _ => ⟨rfl, fun _ => ⟨firstOf_mono Grammar.firstByRecursion_below,
        firstOf_mono (Grammar.firstByPasses_below free)⟩⟩
    · exact fun symbol _ => ⟨rfl, fun element =>
        ⟨Grammar.followAssignment_recursive_below symbol element,
          Grammar.followAssignment_fixedPoint_below free symbol element⟩⟩

end Session

/-- A grammar without left recursion, in which the empty string can come first and two productions
are in conflict. -/
def layeredSample : Grammar where
  productions :=
    [⟨1, .nonterminal "S", [.nonterminal "A", .nonterminal "B", .terminal "c"]⟩,
     ⟨2, .nonterminal "A", [.terminal "a", .nonterminal "A"]⟩,
     ⟨3, .nonterminal "A", [.epsilon]⟩,
     ⟨4, .nonterminal "B", [.terminal "b", .nonterminal "S"]⟩,
     ⟨5, .nonterminal "B", [.epsilon]⟩,
     ⟨6, .nonterminal "S", [.terminal "c"]⟩]
  start := .nonterminal "S"
  sound := by decide

namespace Session

theorem strategies_agree_layeredSample :
    let passes := (new layeredSample .fixedPoint).after [.table]
    let descents := (new layeredSample .recursive).after [.followOf (.named "B"), .firstSets]
    ¬ layeredSample.LeftRecursive ∧
      List.Forall₂ Same descents.firstSets.1 passes.firstSets.1 ∧
      List.Forall₂ Same descents.followSets.1 passes.followSets.1 ∧
      descents.table.1.cells = passes.table.1.cells ∧
      descents.table.1.conflicts = passes.table.1.conflicts ∧
      ∀ limit names, descents.table.1.parseNames? limit names =
        passes.table.1.parseNames? limit names := by
  have free : ¬ layeredSample.LeftRecursive :=
    Grammar.not_leftRecursive_of_rank (fun symbol => if symbol.name = "S" then 1 else 0) (by decide)
  exact ⟨free, (strategies_agree layeredSample [.table] [.followOf (.named "B"), .firstSets]).2 free⟩

end Session

end Predictive
