import Predictive.Grammar.Index
import Predictive.Proofs.RuleLists
import Mathlib.Data.Set.Function
import Mathlib.Order.Interval.Set.Defs

/-! The index of a grammar against its productions. Filling the index meets the first defect that the
checks of the productions find, and an index that is filled answers every question as the productions
themselves do. -/

set_option autoImplicit false

namespace Predictive

/-! ### Folds that may fail -/

section
variable {Cause State Value Element : Type}

/-- What an attempt comes to: its first defect, or a good state if there is none. -/
def Fills (outcome : Except Cause State) (defect : Option Cause) (good : State → Prop) : Prop :=
  match defect with
  | some cause => outcome = .error cause
  | none => ∃ state, outcome = .ok state ∧ good state

theorem Fills.ok {state : State} {good : State → Prop} (holds : good state) :
    Fills (Except.ok (ε := Cause) state) none good :=
  ⟨state, rfl, holds⟩

theorem Fills.holds {outcome : Except Cause State} {defect : Option Cause} {good : State → Prop}
    (fills : Fills outcome defect good) {state : State} (ok : outcome = .ok state) : good state := by
  subst ok
  cases defect with
  | some cause => cases fills
  | none =>
    obtain ⟨_, same, holds⟩ := fills
    cases same
    exact holds

theorem Fills.error_iff {outcome : Except Cause State} {defect : Option Cause}
    {good : State → Prop} (fills : Fills outcome defect good) {cause : Cause} :
    outcome = .error cause ↔ defect = some cause := by
  cases defect with
  | some first =>
    have failed : outcome = .error first := fills
    rw [failed, Except.error.injEq, Option.some.injEq]
  | none =>
    obtain ⟨state, rfl, _⟩ := fills
    simp

theorem Fills.bind {step : Except Cause State} {next : State → Except Cause Value}
    {first second : Option Cause} {middle : State → Prop} {good : Value → Prop}
    (fills : Fills step first middle)
    (later : ∀ state, middle state → Fills (next state) second good) :
    Fills (step >>= next) (first.or second) good := by
  cases first with
  | some cause =>
    have failed : step = .error cause := fills
    rw [failed]
    rfl
  | none =>
    obtain ⟨state, rfl, holds⟩ := fills
    exact later state holds

theorem Fills.map {step : Except Cause State} {next : State → Value} {defect : Option Cause}
    {middle : State → Prop} {good : Value → Prop} (fills : Fills step defect middle)
    (later : ∀ state, middle state → good (next state)) :
    Fills (step >>= fun state => .ok (next state)) defect good := by
  rw [← Option.or_none (o := defect)]
  exact fills.bind fun state holds => .ok (later state holds)

/-- A fold meets the first defect of a list if each of its steps meets the defect of its element,
and what holds of the elements entered so far holds of the whole list otherwise. -/
theorem fills_foldlM {whole : List Element} {step : State → Element → Except Cause State}
    (scan : List Element → List Element → Option Cause) (holds : List Element → State → Prop)
    (done : ∀ entered, scan entered [] = none)
    (each : ∀ entered element rest state, whole = entered ++ element :: rest →
      holds entered state → ∃ defect,
        scan entered (element :: rest) = defect.or (scan (entered ++ [element]) rest) ∧
          Fills (step state element) defect (holds (entered ++ [element])))
    {state : State} (start : holds [] state) :
    Fills (whole.foldlM step state) (scan [] whole) (holds whole) := by
  have run (rest : List Element) : ∀ entered state, whole = entered ++ rest → holds entered state →
      Fills (rest.foldlM step state) (scan entered rest) (holds whole) := by
    induction rest with
    | nil =>
      intro entered state parts known
      rw [List.append_nil] at parts
      rw [done, parts]
      exact .ok known
    | cons element rest ih =>
      intro entered state parts known
      obtain ⟨defect, unfold, fills⟩ := each entered element rest state parts known
      rw [unfold, List.foldlM_cons]
      refine fills.bind fun state known => ih _ state ?_ known
      rw [parts, List.append_assoc, List.singleton_append]
  exact run whole [] state rfl start

theorem fills_foldlM_findSome? {whole : List Element} {step : State → Element → Except Cause State}
    (check : Element → Option Cause) (holds : List Element → State → Prop)
    (each : ∀ entered element rest state, whole = entered ++ element :: rest →
      holds entered state → Fills (step state element) (check element) (holds (entered ++ [element])))
    {state : State} (start : holds [] state) :
    Fills (whole.foldlM step state) (whole.findSome? check) (holds whole) := by
  refine fills_foldlM (fun _ rest => rest.findSome? check) holds (fun _ => rfl) ?_ start
  intro entered element rest state parts known
  refine ⟨check element, ?_, each entered element rest state parts known⟩
  rw [List.findSome?_cons]
  cases check element <;> rfl

end

/-! ### The pass over the left-hand sides -/

namespace LeftIndex

variable {left : LeftIndex} {entered : List Production}

/-- The first pass has entered some productions. -/
structure Covers (left : LeftIndex) (entered : List Production) : Prop where
  byId : ∀ id, left.byId.lookup id = entered.find? (·.id = id)
  byLhs : ∀ symbol, filed left.byLhs symbol = entered.filter (·.lhs = symbol)
  known : ∀ symbol, left.hasProductions symbol = true ↔ symbol ∈ entered.map Production.lhs
  nonTerminals : left.nonTerminals = lhsSymbols entered
  kinds : ∀ production ∈ entered, production.lhs.isNonterminal = true

theorem covers_empty : empty.Covers [] where
  byId _ := rfl
  byLhs _ := rfl
  known := by simp [hasProductions, empty]
  nonTerminals := rfl
  kinds := by simp

theorem Covers.isSome_byId (covers : left.Covers entered) (id : Int) :
    (left.byId.lookup id).isSome = true ↔ id ∈ entered.map Production.id := by
  rw [covers.byId, List.find?_isSome]
  simp

theorem Covers.contains_lhsSymbols (covers : left.Covers entered) (symbol : Symbol) :
    (lhsSymbols entered).contains symbol = left.hasProductions symbol := by
  rw [Bool.eq_iff_iff, covers.known, List.contains_iff_mem, lhsSymbols, List.mem_eraseDups]

theorem Covers.concat (covers : left.Covers entered) {production : Production}
    (kind : production.lhs.isNonterminal = true) :
    (left.add production).Covers (entered ++ [production]) where
  byId := by
    intro id
    rw [add, List.lookup_append, covers.byId, List.find?_append]
    congr 1
    by_cases same : production.id = id
    · simp [same]
    · simp [same, List.lookup_cons, beq_eq_false_iff_ne.mpr (Ne.symm same)]
  byLhs := by
    intro symbol
    rw [add, filed_file, covers.byLhs, covers.byLhs, List.filter_append]
    by_cases same : symbol = production.lhs
    · simp [same]
    · simp [same, Ne.symm same]
  known := by
    intro symbol
    have earlier := covers.known symbol
    unfold hasProductions at earlier ⊢
    rw [add, lookup_file, List.map_append, List.mem_append, ← earlier]
    by_cases same : symbol = production.lhs
    · simp [same]
    · simp [same]
  nonTerminals := by
    rw [lhsSymbols, List.map_append, List.map_singleton, eraseDups_concat, add,
      covers.nonTerminals]
    simp only [covers.known]
    rfl
  kinds := by
    intro other member
    rcases List.mem_append.mp member with earlier | last
    · exact covers.kinds other earlier
    · rwa [List.mem_singleton.mp last]

theorem fills_enter (productions : List Production) :
    Fills (productions.foldlM enter empty) (lhsDefect? [] productions)
      (·.Covers productions) := by
  refine fills_foldlM (fun entered rest => lhsDefect? (entered.map Production.id).reverse rest)
    (fun entered (left : LeftIndex) => left.Covers entered) (fun _ => rfl) ?_ covers_empty
  intro entered production rest left _ covers
  refine ⟨if !production.lhs.isNonterminal then some (.lhsNotNonterminal production.lhs)
    else if production.id ∈ entered.map Production.id then some (.duplicateId production.id)
    else none, ?_, ?_⟩
  · simp only [lhsDefect?, List.mem_reverse, List.map_append, List.map_singleton,
      List.reverse_append, List.reverse_singleton, List.singleton_append]
    split_ifs <;> rfl
  · unfold enter
    simp only [covers.isSome_byId]
    split_ifs with kind used
    · rfl
    · rfl
    · exact .ok (covers.concat (by simpa using kind))

end LeftIndex

/-! ### The pass over the right-hand sides -/

/-- The second pass has entered some productions. -/
structure RightIndex.Covers (right : RightIndex) (entered : List Production) : Prop where
  containing : ∀ symbol, filed right.containing symbol =
    if symbol = .epsilon then [] else entered.filter (·.rhs.contains symbol)
  terminals : right.terminals = rhsTerminals entered

namespace RightScan

variable {left : LeftIndex} {entered productions : List Production} {production : Production}
  {read : List Symbol} {scan : RightScan}

/-- The second pass has entered some productions and read some symbols of one more. -/
structure Covers (scan : RightScan) (entered : List Production) (production : Production)
    (read : List Symbol) : Prop where
  seen : ∀ symbol, symbol ∈ scan.seen ↔ symbol ∈ read ∧ symbol ≠ .epsilon
  containing : ∀ symbol, filed scan.index.containing symbol =
    if symbol = .epsilon then []
    else entered.filter (·.rhs.contains symbol) ++ if symbol ∈ read then [production] else []
  terminals : scan.index.terminals =
    ((entered.flatMap Production.rhs ++ read).filter Symbol.isTerminal).eraseDups

theorem covers_start {right : RightIndex} (covers : right.Covers entered)
    (production : Production) : Covers ⟨right, []⟩ entered production [] where
  seen := by simp
  containing := by simp [covers.containing]
  terminals := by simp [covers.terminals, rhsTerminals]

theorem Covers.index (covers : scan.Covers entered production production.rhs) :
    scan.index.Covers (entered ++ [production]) where
  containing := by
    intro symbol
    rw [covers.containing, List.filter_append]
    by_cases written : symbol ∈ production.rhs
    · simp [written]
    · simp [written]
  terminals := by
    rw [covers.terminals, rhsTerminals, List.flatMap_append, List.flatMap_singleton]

theorem Covers.epsilon (covers : scan.Covers entered production read) :
    scan.Covers entered production (read ++ [.epsilon]) where
  seen := by
    intro symbol
    rw [covers.seen, List.mem_append, List.mem_singleton]
    constructor
    · exact fun ⟨member, visible⟩ => ⟨.inl member, visible⟩
    · exact fun ⟨member, visible⟩ => ⟨member.resolve_right visible, visible⟩
  containing := by
    intro symbol
    rw [covers.containing]
    by_cases empty : symbol = .epsilon
    · simp [empty]
    · simp [empty]
  terminals := by
    rw [covers.terminals, ← List.append_assoc, List.filter_append _ [Symbol.epsilon]]
    simp

theorem Covers.concat (covers : scan.Covers entered production read) {symbol : Symbol}
    (visible : symbol ≠ .epsilon) :
    (scan.add production symbol).Covers entered production (read ++ [symbol]) where
  seen := by
    intro other
    have later : other ∈ (scan.add production symbol).seen ↔ other ∈ scan.seen ∨ other = symbol := by
      unfold add
      dsimp only
      split
      · rename_i repeated
        exact ⟨.inl, fun cases => cases.elim id fun same => same ▸ repeated⟩
      · simp
    rw [later, covers.seen, List.mem_append, List.mem_singleton]
    constructor
    · rintro (⟨member, other⟩ | rfl)
      · exact ⟨.inl member, other⟩
      · exact ⟨.inr rfl, visible⟩
    · rintro ⟨member | rfl, other⟩
      · exact .inl ⟨member, other⟩
      · exact .inr rfl
  containing := by
    intro other
    have known : symbol ∈ scan.seen ↔ symbol ∈ read := by simp [covers.seen, visible]
    have earlier := covers.containing other
    by_cases repeated : symbol ∈ read
    · -- a symbol that was read before is neither filed again nor read for the first time
      have same : other ∈ read ++ [symbol] ↔ other ∈ read := by
        simp only [List.mem_append, List.mem_singleton, or_iff_left_iff_imp]
        rintro rfl
        exact repeated
      simp only [add, known, repeated, if_true, earlier, same]
    · simp only [add, known, repeated, if_false, filed_file, covers.containing]
      by_cases here : other = symbol
      · subst here
        simp [visible, repeated]
      · simp [here]
  terminals := by
    rw [← List.append_assoc, List.filter_append _ [symbol]]
    by_cases kind : symbol.isTerminal = true
    · have known : symbol ∈ scan.index.terminals ↔
          symbol ∈ (entered.flatMap Production.rhs ++ read).filter Symbol.isTerminal := by
        rw [covers.terminals, List.mem_eraseDups]
      have single : [symbol].filter Symbol.isTerminal = [symbol] := by simp [kind]
      rw [single, eraseDups_concat, ← covers.terminals]
      simp only [add, kind, Bool.true_and, decide_not, Bool.not_eq_eq_eq_not, Bool.not_true,
        decide_eq_false_iff_not, ite_not, known]
    · simp [add, kind, covers.terminals]

/-- The defect of one symbol on the right. -/
def defect? (defined : List Symbol) (production : Production) (symbol : Symbol) :
    Option GrammarError :=
  if symbol.kind = .endOfInput then some (.reservedOnRight symbol production)
  else if symbol.isNonterminal && !defined.contains symbol then
    some (.undefinedOnRight symbol production)
  else none

theorem fills_enter (covers : left.Covers productions) {right : RightIndex}
    (known : right.Covers entered) (production : Production) :
    Fills (production.rhs.foldlM (enter left production) ⟨right, []⟩)
      (rhsDefect? (lhsSymbols productions) production)
      (·.Covers entered production production.rhs) := by
  refine fills_foldlM_findSome? (defect? (lhsSymbols productions) production)
    (fun read (scan : RightScan) => scan.Covers entered production read) ?_ (covers_start known production)
  intro read symbol rest scan _ covered
  unfold enter defect?
  rw [covers.contains_lhsSymbols]
  by_cases empty : symbol = .epsilon
  · subst empty
    exact .ok covered.epsilon
  · rw [if_neg empty]
    split_ifs
    · rfl
    · rfl
    · exact .ok (covered.concat empty)

end RightScan

theorem RightIndex.fills_enter {left : LeftIndex} {productions : List Production}
    (covers : left.Covers productions) :
    Fills (productions.foldlM (RightIndex.enter left) .empty)
      (productions.findSome? (rhsDefect? (lhsSymbols productions)))
      (·.Covers productions) := by
  refine fills_foldlM_findSome? _ (fun entered (right : RightIndex) => right.Covers entered) ?_
    ⟨fun symbol => ?_, rfl⟩
  · intro entered production rest right _ known
    exact (RightScan.fills_enter covers known production).map fun scan read => read.index
  · rw [List.filter_nil, ite_self]
    rfl

/-! ### Names and places -/

/-- Some symbols have been entered under their names. -/
def NamesCover (entered : List Symbol) (names : List (String × Symbol)) : Prop :=
  ∀ name, names.lookup name = entered.find? (·.name = name)

theorem fills_enterName {entered : List Symbol} {names : List (String × Symbol)}
    (covers : NamesCover entered names) (symbol : Symbol) :
    Fills (enterName names symbol)
      (if symbol.name ∈ entered.map Symbol.name then some (.terminalAndNonterminal symbol.name)
        else none)
      (NamesCover (entered ++ [symbol])) := by
  have used : (names.lookup symbol.name).isSome = true ↔ symbol.name ∈ entered.map Symbol.name := by
    rw [covers, List.find?_isSome]
    simp
  unfold enterName
  simp only [used]
  split
  · rfl
  · refine .ok fun name => ?_
    rw [List.lookup_append, covers, List.find?_append]
    congr 1
    by_cases same : symbol.name = name
    · simp [same]
    · simp [same, List.lookup_cons, beq_eq_false_iff_ne.mpr (Ne.symm same)]

theorem nameDefect?_eq_findSome? (nonTerminals terminals : List Symbol) :
    nameDefect? nonTerminals terminals = terminals.findSome? fun terminal =>
      if nonTerminals.contains (.nonterminal terminal.name) then
        some (.terminalAndNonterminal terminal.name)
      else none := by
  unfold nameDefect?
  induction terminals with
  | nil => rfl
  | cons terminal rest ih =>
    rw [List.find?_cons, List.findSome?_cons]
    by_cases clash : nonTerminals.contains (.nonterminal terminal.name) = true
    · simp only [clash, if_true, Option.map_some]
    · simp only [clash, ih, Bool.false_eq_true, if_false]

/-- Symbols of one kind have names of their own, so a name can be taken only by a terminal that
comes behind a non-terminal. -/
theorem fills_names {nonTerminals terminals : List Symbol}
    (left : ∀ symbol ∈ nonTerminals, symbol.isNonterminal = true) (distinct : nonTerminals.Nodup)
    (right : ∀ symbol ∈ terminals, symbol.isTerminal = true) (apart : terminals.Nodup) :
    Fills ((nonTerminals ++ terminals).foldlM enterName []) (nameDefect? nonTerminals terminals)
      (NamesCover (nonTerminals ++ terminals)) := by
  have first : Fills (nonTerminals.foldlM enterName []) none (NamesCover nonTerminals) := by
    have clean : nonTerminals.findSome? (fun _ => (none : Option GrammarError)) = none := by simp
    rw [← clean]
    refine fills_foldlM_findSome? _ NamesCover ?_ fun _ => rfl
    intro entered symbol rest names parts covers
    have fresh : symbol.name ∉ entered.map Symbol.name := by
      intro taken
      obtain ⟨other, early, same⟩ := List.mem_map.mp taken
      have kind := left symbol (by simp [parts])
      have before := left other (by simp [parts, early])
      rw [Symbol.eq_nonterminal before, same, ← Symbol.eq_nonterminal kind] at early
      rw [parts, List.nodup_append] at distinct
      exact distinct.2.2 symbol early symbol (by simp) rfl
    simpa only [fresh, if_false] using fills_enterName covers symbol
  rw [List.foldlM_append, nameDefect?_eq_findSome?, ← Option.none_or (o := terminals.findSome? _)]
  refine first.bind fun names covers => ?_
  refine fills_foldlM_findSome? _ (fun entered => NamesCover (nonTerminals ++ entered)) ?_
    (by rwa [List.append_nil])
  intro entered symbol rest names parts covers
  have taken : symbol.name ∈ (nonTerminals ++ entered).map Symbol.name ↔
      nonTerminals.contains (.nonterminal symbol.name) = true := by
    rw [List.contains_iff_mem, List.mem_map]
    constructor
    · rintro ⟨other, member, same⟩
      rcases List.mem_append.mp member with early | late
      · rwa [← same, ← Symbol.eq_nonterminal (left other early)]
      · have kind := right symbol (by simp [parts])
        have before := right other (by simp [parts, late])
        rw [Symbol.eq_terminal before, same, ← Symbol.eq_terminal kind] at late
        rw [parts, List.nodup_append] at apart
        exact absurd rfl (apart.2.2 symbol late symbol (by simp))
    · exact fun known => ⟨_, List.mem_append_left _ known, rfl⟩
  rw [← List.append_assoc]
  simpa only [taken] using fills_enterName covers symbol

theorem lookup_zipIdx (symbols : List Symbol) (start : Nat) (symbol : Symbol) :
    ((symbols.zipIdx start).lookup symbol).getD (start + symbols.length) =
      start + symbols.idxOf symbol := by
  induction symbols generalizing start with
  | nil => rfl
  | cons first rest ih =>
    rw [List.zipIdx_cons, List.lookup_cons, List.idxOf_cons, List.length_cons]
    by_cases same : symbol = first
    · simp [same]
    · have later := ih (start + 1)
      simp only [beq_eq_false_iff_ne.mpr same, beq_eq_false_iff_ne.mpr (Ne.symm same), cond_false]
      rw [show start + (rest.length + 1) = start + 1 + rest.length by omega, later]
      omega

/-! ### The whole index -/

namespace GrammarIndex

/-- An index that answers as the productions of a grammar do. -/
structure Answers (index : GrammarIndex) (grammar : Grammar) : Prop where
  productionsOf : ∀ symbol, index.productionsOf symbol = grammar.productionsOf symbol
  productionsContaining : ∀ symbol,
    index.productionsContaining symbol = grammar.productionsContaining symbol
  production? : ∀ id, index.production? id = grammar.production? id
  nonTerminals : index.left.nonTerminals = grammar.nonTerminals
  terminals : index.right.terminals = grammar.terminals
  find? : ∀ name, index.find? name = grammar.find? name
  rank : ∀ symbol, index.rank symbol = grammar.rank symbol

theorem answers_of_covers {left : LeftIndex} {right : RightIndex} {names : List (String × Symbol)}
    {grammar : Grammar} (covers : left.Covers grammar.productions)
    (known : right.Covers grammar.productions)
    (named : NamesCover (left.nonTerminals ++ right.terminals) names) :
    Answers ⟨left, right, names,
      (left.nonTerminals ++ right.terminals ++ [Symbol.endOfInput]).zipIdx⟩ grammar where
  productionsOf := covers.byLhs
  productionsContaining := known.containing
  production? := covers.byId
  nonTerminals := covers.nonTerminals
  terminals := known.terminals
  find? := by
    intro name
    rw [find?, Grammar.find?, named, covers.nonTerminals, known.terminals]
    rfl
  rank := by
    intro symbol
    have place := lookup_zipIdx (left.nonTerminals ++ right.terminals ++ [Symbol.endOfInput]) 0 symbol
    rw [Nat.zero_add, Nat.zero_add] at place
    rw [rank, List.length_zipIdx, place, covers.nonTerminals, known.terminals]
    rfl

theorem fills_ofProductions (productions : List Production) (start : Symbol) :
    Fills (ofProductions productions start) (defect? productions start)
      (fun index => ∀ grammar : Grammar, grammar.productions = productions →
        index.Answers grammar) := by
  unfold ofProductions defect?
  by_cases none : productions.isEmpty = true
  · rw [if_pos none, if_pos none]
    rfl
  rw [if_neg none, if_neg none]
  simp only [Option.orElse_eq_orElse, Option.orElse_eq_or]
  -- the checks follow one another as the passes do, so their defects are met in the same order
  refine (LeftIndex.fills_enter productions).bind fun left covers => ?_
  refine (RightIndex.fills_enter covers).bind fun right known => ?_
  rw [covers.contains_lhsSymbols]
  by_cases ruled : left.hasProductions start = true
  · rw [if_pos ruled, if_pos ruled, Option.none_or, ← covers.nonTerminals, ← known.terminals]
    have names : Fills ((left.nonTerminals ++ right.terminals).foldlM enterName [])
        (nameDefect? left.nonTerminals right.terminals)
        (NamesCover (left.nonTerminals ++ right.terminals)) := by
      refine fills_names ?_ ?_ ?_ ?_
      · intro symbol member
        rw [covers.nonTerminals, lhsSymbols, List.mem_eraseDups] at member
        obtain ⟨production, listed, rfl⟩ := List.mem_map.mp member
        exact covers.kinds production listed
      · rw [covers.nonTerminals]
        exact (firstAppearances_eraseDups _).nodup
      · intro symbol member
        rw [known.terminals, rhsTerminals, List.mem_eraseDups] at member
        exact (List.mem_filter.mp member).2
      · rw [known.terminals]
        exact (firstAppearances_eraseDups _).nodup
    refine names.map fun names named grammar same => ?_
    subst same
    exact answers_of_covers covers known named
  · rw [if_neg ruled, if_neg ruled]
    rfl

/-- What an index says does not depend on the start symbol. -/
theorem ofProductions_restart {productions : List Production} {start other : Symbol}
    {index : GrammarIndex} (filled : ofProductions productions start = .ok index)
    (ruled : other ∈ productions.map Production.lhs) :
    ofProductions productions other = .ok index := by
  unfold ofProductions at filled ⊢
  split at filled
  · cases filled
  · rename_i some
    obtain ⟨left, leftFilled, filled⟩ := exists_of_bind_eq_ok filled
    obtain ⟨right, rightFilled, filled⟩ := exists_of_bind_eq_ok filled
    have known : left.hasProductions other = true :=
      (((LeftIndex.fills_enter productions).holds leftFilled).known other).mpr ruled
    split at filled
    · rw [if_neg some, leftFilled]
      change productions.foldlM (RightIndex.enter left) .empty >>= _ = _
      rw [rightFilled]
      change (if left.hasProductions other = true then _ else _) = _
      rw [if_pos known]
      exact filled
    · cases filled

end GrammarIndex

/-! ### Productions that are refused -/

namespace Grammar

theorem fills_ofProductions (productions : List Production) (start : Symbol) :
    Fills (ofProductions productions start) (defect? productions start)
      (fun grammar => grammar.productions = productions ∧ grammar.start = start) := by
  cases found : defect? productions start with
  | none => exact ⟨_, ofProductions_self ⟨productions, start, found⟩, rfl, rfl⟩
  | some cause =>
    change ofProductions productions start = .error cause
    unfold ofProductions
    split
    · rename_i other same
      rw [found, Option.some.injEq] at same
      rw [same]
    · rename_i clean
      rw [found] at clean
      cases clean

theorem ofProductions_eq_error {productions : List Production} {start : Symbol} :
    (∃ cause, ofProductions productions start = .error cause) ↔ Malformed productions start := by
  constructor
  · rintro ⟨cause, refused⟩
    by_contra fit
    have found := (fills_ofProductions productions start).error_iff.mp refused
    rw [defect?_eq_none fit] at found
    cases found
  · intro malformed
    cases built : ofProductions productions start with
    | error cause => exact ⟨cause, rfl⟩
    | ok grammar =>
      obtain ⟨rfl, rfl⟩ := eq_of_ofProductions built
      exact absurd malformed grammar.not_malformed

/-! ### What an index is good for -/

/-- The productions of a list that pass a test, each of them once and in the order of the list. -/
structure Selects (chosen source : List Production) (test : Production → Prop) : Prop where
  order : chosen.Sublist source
  nodup : chosen.Nodup
  mem : ∀ production, production ∈ chosen ↔ production ∈ source ∧ test production

theorem selects_filter (grammar : Grammar) {passes : Production → Bool} {test : Production → Prop}
    (same : ∀ production, passes production = true ↔ test production) :
    Selects (grammar.productions.filter passes) grammar.productions test where
  order := List.filter_sublist
  nodup := (grammar.ids_nodup.of_map _).filter _
  mem := by
    intro production
    rw [List.mem_filter, same]

theorem symbols_nodup (grammar : Grammar) : grammar.symbols.Nodup := by
  have terminal : ∀ symbol ∈ grammar.terminals, symbol.isTerminal = true :=
    fun symbol member => (List.mem_filter.mp (mem_terminals_iff.mp member)).2
  refine List.nodup_append.mpr ⟨List.nodup_append.mpr ⟨?_, ?_, ?_⟩, List.nodup_singleton _, ?_⟩
  · exact (firstAppearances_eraseDups _).nodup
  · exact (firstAppearances_eraseDups _).nodup
  · rintro symbol left other right rfl
    have kind := isNonterminal_of_mem left
    rw [Symbol.eq_terminal (terminal symbol right)] at kind
    cases kind
  · rintro symbol listed other last rfl
    rw [List.mem_singleton] at last
    subst last
    rcases List.mem_append.mp listed with left | right
    · cases isNonterminal_of_mem left
    · cases terminal _ right

/-- The order numbers the symbols without a gap. -/
theorem bijOn_rank (grammar : Grammar) :
    Set.BijOn grammar.rank
      {symbol | symbol ∈ grammar.nonTerminals ∨ symbol ∈ grammar.terminals ∨ symbol = .endOfInput}
      (Set.Iic (grammar.nonTerminals.length + grammar.terminals.length)) := by
  have listed : ∀ symbol, (symbol ∈ grammar.nonTerminals ∨ symbol ∈ grammar.terminals ∨
      symbol = .endOfInput) ↔ symbol ∈ grammar.symbols := by
    simp [symbols]
  have size : grammar.symbols.length =
      grammar.nonTerminals.length + grammar.terminals.length + 1 := by
    simp [symbols, Nat.add_assoc]
  refine ⟨?_, ?_, ?_⟩
  · intro symbol member
    have place := List.idxOf_lt_length_of_mem ((listed symbol).mp member)
    rw [size] at place
    exact Nat.lt_succ_iff.mp place
  · intro left member right _ same
    exact (List.idxOf_inj ((listed left).mp member)).mp same
  · intro place within
    have bound : place < grammar.symbols.length := by
      rw [size]
      exact Nat.lt_succ_of_le within
    exact ⟨grammar.symbols[place], (listed _).mpr (List.getElem_mem bound),
      grammar.symbols_nodup.idxOf_getElem place bound⟩

/-- A grammar that is what some productions say, whichever of its indexes is asked. -/
structure Indexes (grammar : Grammar) (productions : List Production) (start : Symbol) : Prop where
  productions_eq : grammar.productions = productions
  start_eq : grammar.start = start
  lhs : ∀ symbol, symbol ≠ .epsilon →
    Selects (grammar.productionsOf symbol) productions (·.lhs = symbol)
  rhs : ∀ symbol, symbol ≠ .epsilon →
    Selects (grammar.productionsContaining symbol) productions (symbol ∈ ·.rhs)
  id : ∀ production ∈ productions, grammar.production production.id = .ok production ∧
    ∀ other ∈ productions, other.id = production.id → other = production
  unused : ∀ id ∉ productions.map Production.id,
    grammar.production id = .error (.unknownProduction id)
  nonTerminals : FirstAppearances grammar.nonTerminals (productions.map Production.lhs)
  terminals : FirstAppearances grammar.terminals
    ((productions.flatMap Production.rhs).filter Symbol.isTerminal)
  order : Set.BijOn grammar.rank
    {symbol | symbol ∈ grammar.nonTerminals ∨ symbol ∈ grammar.terminals ∨ symbol = .endOfInput}
    (Set.Iic (grammar.nonTerminals.length + grammar.terminals.length))

theorem indexes (grammar : Grammar) : grammar.Indexes grammar.productions grammar.start where
  productions_eq := rfl
  start_eq := rfl
  lhs symbol _ := grammar.selects_filter (by simp)
  rhs symbol visible := by
    rw [productionsContaining, if_neg visible]
    exact grammar.selects_filter (by simp)
  id production listed := by
    have found : grammar.production? production.id = some production :=
      production?_eq_some.mpr ⟨listed, rfl⟩
    exact ⟨by rw [Grammar.production, found], fun other member same => eq_of_id_eq member listed same⟩
  unused id new := by
    have missing : grammar.production? id = none :=
      List.find?_eq_none.mpr fun production listed same =>
        new (List.mem_map.mpr ⟨production, listed, by simpa using same⟩)
    rw [production, missing]
  nonTerminals := firstAppearances_eraseDups _
  terminals := firstAppearances_eraseDups _
  order := grammar.bijOn_rank

theorem withStart_exact {grammar : Grammar} {symbol : Symbol}
    (known : symbol ∈ grammar.nonTerminals) :
    grammar.withStart (.exact symbol) = .ok (grammar.startingAt symbol known) := by
  unfold withStart resolve?
  simp only [isNonterminal_of_mem known, if_true]
  exact ofProductions_startingAt known

/-- Productions are refused for just these defects. All others make a grammar, and so they do from
any other of their left-hand sides, with an index that says what the productions say. -/
theorem index_faithful (productions : List Production) (start : Symbol) :
    ((∃ cause, ofProductions productions start = .error cause) ↔ Malformed productions start) ∧
      (∀ cause, GrammarIndex.ofProductions productions start = .error cause ↔
        ofProductions productions start = .error cause) ∧
      ∀ grammar, ofProductions productions start = .ok grammar →
        grammar.Indexes productions start ∧
          ∃ index, GrammarIndex.ofProductions productions start = .ok index ∧
            index.Answers grammar ∧
            ∀ symbol ∈ grammar.nonTerminals, ∃ changed,
              grammar.withStart (.exact symbol) = .ok changed ∧
                changed.productions = grammar.productions ∧ changed.start = symbol ∧
                GrammarIndex.ofProductions productions symbol = .ok index := by
  have fills := GrammarIndex.fills_ofProductions productions start
  refine ⟨ofProductions_eq_error, ?_, ?_⟩
  · intro cause
    rw [fills.error_iff, (fills_ofProductions productions start).error_iff]
  · intro grammar built
    obtain ⟨rfl, rfl⟩ := eq_of_ofProductions built
    rw [grammar.sound] at fills
    obtain ⟨index, filled, answers⟩ := fills
    refine ⟨grammar.indexes, index, filled, answers grammar rfl, fun symbol known => ?_⟩
    exact ⟨_, withStart_exact known, rfl, rfl,
      GrammarIndex.ofProductions_restart filled (mem_nonTerminals_iff.mp known)⟩

/-- Identities in no order, a symbol that stands twice in one right-hand side, and one whose kind
alone is that of the empty string. -/
def scatteredProductions : List Production :=
  [⟨7, .nonterminal "S", [.nonterminal "A", .terminal "x", .nonterminal "A"]⟩,
   ⟨-2, .nonterminal "A", [⟨"e", .epsilon⟩, .terminal "x"]⟩,
   ⟨0, .nonterminal "A", [.epsilon]⟩]

theorem index_faithful_scattered :
    ∃ grammar, ofProductions scatteredProductions (.nonterminal "S") = .ok grammar ∧
      grammar.Indexes scatteredProductions (.nonterminal "S") ∧
      grammar.withStart (.exact (.nonterminal "A")) =
        ofProductions scatteredProductions (.nonterminal "A") ∧
      Malformed scatteredProductions (.nonterminal "x") := by
  let grammar : Grammar := ⟨scatteredProductions, .nonterminal "S", by decide⟩
  have built : ofProductions scatteredProductions (.nonterminal "S") = .ok grammar :=
    ofProductions_self grammar
  obtain ⟨_, _, faithful⟩ := index_faithful scatteredProductions (.nonterminal "S")
  obtain ⟨indexes, index, _, _, restarts⟩ := faithful grammar built
  obtain ⟨changed, started, productions, start, _⟩ := restarts (.nonterminal "A") (by decide)
  refine ⟨grammar, built, indexes, ?_, ?_⟩
  · have again := ofProductions_self changed
    rw [productions, start] at again
    rw [started, again]
  · exact (index_faithful scatteredProductions (.nonterminal "x")).1.mp
      ⟨.startWithoutProductions "x", by rfl⟩

end Grammar

end Predictive
