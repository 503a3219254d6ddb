import Predictive.Proofs.Repetition
import Predictive.Proofs.RunDerivation
import Mathlib.Data.Finset.Card
import Mathlib.Data.List.Chain

/-! Runs that come to an end. Above a given part of the stack a run either ends, or reads on, or
takes the symbols off without input. While it works on a right-hand side the symbol that it stands
for is noted, unless it works on the last symbol: then the stack is as low as before, and only the
next symbol may be noted. So the depth is bounded by the noted symbols, and at one height each
symbol hands over to the next; where they never go around among two or more, every run ends. -/

set_option autoImplicit false

namespace Predictive

namespace ParseTable

/-- Before a lookahead, the first symbol is replaced by a right-hand side that ends with the second
one, a non-terminal, and does not contain the lookahead. -/
def HandsOver (table : ParseTable) (lookahead first second : Symbol) : Prop :=
  ∃ production, table.productionAt first lookahead = .ok (some production) ∧
    production.rhs.getLast? = some second ∧ second.isNonterminal = true ∧
      lookahead ∉ production.rhs

/-- Before a lookahead, two or more distinct symbols hand over to each other in a circle. -/
def GoesAround (table : ParseTable) (lookahead : Symbol) : Prop :=
  ∃ first rest, rest ≠ [] ∧ (first :: rest).Nodup ∧
    List.IsChain (table.HandsOver lookahead) (first :: rest ++ [first])

/-- The symbols with a filled cell. -/
def owners (table : ParseTable) : Finset Symbol :=
  (table.cells.map Cell.nonterminal).toFinset

/-- The symbols with a filled cell that are not among the noted ones. -/
def unnoted (table : ParseTable) (noted : List (Symbol × Nat)) : Finset Symbol :=
  table.owners \ (noted.map Prod.fst).toFinset

variable {table : ParseTable} {symbol lookahead : Symbol} {production : Production}

theorem mem_owners (filled : table.productionAt symbol lookahead = .ok (some production)) :
    symbol ∈ table.owners := by
  obtain ⟨cell, found, _⟩ := Option.map_eq_some_iff.mp (productionAt_eq_some filled).1
  have place := List.find?_some found
  simp only [Cell.isAt, Bool.and_eq_true, decide_eq_true_eq] at place
  rw [owners, List.mem_toFinset, ← place.1]
  exact List.mem_map_of_mem (List.mem_of_find?_eq_some found)

/-- Once more symbols are noted, fewer are not. -/
theorem card_unnoted_lt {noted others : List (Symbol × Nat)} (owned : symbol ∈ table.owners)
    (fresh : ∀ entry ∈ noted, entry.1 ≠ symbol) (now : ∃ entry ∈ others, entry.1 = symbol)
    (still : ∀ entry ∈ noted, entry ∈ others) :
    (table.unnoted others).card < (table.unnoted noted).card := by
  apply Finset.card_lt_card
  rw [Finset.ssubset_iff_of_subset]
  · refine ⟨symbol, ?_, ?_⟩
    · simpa [unnoted, owned] using fun height member => fresh (symbol, height) member rfl
    · obtain ⟨entry, member, rfl⟩ := now
      simpa [unnoted] using fun _ => ⟨entry.2, member⟩
  · apply Finset.sdiff_subset_sdiff (Finset.Subset.refl _)
    intro other member
    simp only [List.mem_toFinset, List.mem_map] at member ⊢
    obtain ⟨entry, inside, rfl⟩ := member
    exact ⟨entry, still entry inside, rfl⟩

theorem Faithful.named (faithful : table.Faithful) : table.Named := by
  intro nonterminal lookahead id filled
  obtain ⟨production, declared, same, _⟩ := faithful nonterminal lookahead id filled
  exact ⟨production, declared, same⟩

theorem Named.productionAt_ne_error (named : table.Named) {cause : Error} :
    table.productionAt symbol lookahead ≠ .error cause := by
  intro failed
  unfold productionAt Grammar.production at failed
  cases cell : table.at? symbol lookahead with
  | none => simp [cell] at failed
  | some id =>
    obtain ⟨production, declared, same⟩ := named _ _ _ cell
    simp [cell, Grammar.production?_eq_some.mpr ⟨declared, same⟩, Except.map] at failed

end ParseTable

namespace Run

variable {table : ParseTable} {run later : Run} {top lookahead : Symbol}
  {upper below : List Symbol} {production : Production}

/-- The expansions that are noted with at most some height: they stay noted as long as the stack
is not lower. -/
def notedUpTo (run : Run) (height : Nat) : List (Symbol × Nat) :=
  run.configuration.expansions.filter (·.2 ≤ height)

theorem notedUpTo_of_le {low high : Nat} (le : low ≤ high)
    (same : later.notedUpTo high = run.notedUpTo high) :
    later.notedUpTo low = run.notedUpTo low := by
  have narrow : ∀ run : Run, run.notedUpTo low = (run.notedUpTo high).filter (·.2 ≤ low) := by
    intro run
    rw [notedUpTo, notedUpTo, List.filter_filter]
    apply List.filter_congr
    intro entry _
    by_cases small : entry.2 ≤ low <;> simp [small]
    omega
  rw [narrow later, same, ← narrow run]

theorem notedUpTo_subset {low high : Nat} (le : low ≤ high) {entry : Symbol × Nat}
    (member : entry ∈ run.notedUpTo low) : entry ∈ run.notedUpTo high := by
  simp only [notedUpTo, List.mem_filter, decide_eq_true_eq] at member ⊢
  exact ⟨member.1, Nat.le_trans member.2 le⟩

/-! ### Clearing a part of the stack -/

/-- A run that has come down to some symbols without input, and with the same notes for them. -/
structure Uncovers (later run : Run) (below : List Symbol) : Prop where
  stack : later.configuration.stack = below
  remaining : later.configuration.remaining = run.configuration.remaining
  noted : later.notedUpTo below.length = run.notedUpTo below.length

/-- What becomes of a run above some symbols: it ends, it reads on, or it comes down to them. -/
inductive Clears (table : ParseTable) (run : Run) (below : List Symbol) : Prop where
  | ends {limit : Nat} {result : ParseResult}
      (ended : run.result? true table limit = some (.ok result)) : run.Clears table below
  | reads {later : Run} (reached : Reaches true table run later)
      (less : later.configuration.remaining.length < run.configuration.remaining.length) :
      run.Clears table below
  | uncovers {later : Run} (reached : Reaches true table run later)
      (uncovers : later.Uncovers run below) : run.Clears table below

theorem Clears.after (reached : Reaches true table run later)
    (same : later.configuration.remaining = run.configuration.remaining)
    (noted : later.notedUpTo below.length = run.notedUpTo below.length)
    (clears : later.Clears table below) : run.Clears table below := by
  cases clears with
  | ends ended =>
    obtain ⟨limit, ended⟩ := reached.result? ended
    exact .ends ended
  | reads onward less => exact .reads (reached.trans onward) (by rwa [same] at less)
  | uncovers onward down =>
    exact .uncovers (reached.trans onward)
      ⟨down.stack, down.remaining.trans same, down.noted.trans noted⟩

theorem Clears.andThen (clears : run.Clears table upper) (le : below.length ≤ upper.length)
    (rest : ∀ later : Run, later.Uncovers run upper → later.Clears table below) :
    run.Clears table below := by
  cases clears with
  | ends ended => exact .ends ended
  | reads reached less => exact .reads reached less
  | uncovers reached down =>
    exact .after reached down.remaining (notedUpTo_of_le le down.noted) (rest _ down)

/-- Symbols are cleared one by one, if each of them is. -/
theorem clears_all {symbols : List Symbol} (stack : run.configuration.stack = symbols ++ below)
    (each : ∀ symbol ∈ symbols, ∀ (later : Run) (rest : List Symbol),
      later.configuration.stack = symbol :: rest → below.length ≤ rest.length →
        later.configuration.remaining = run.configuration.remaining →
          later.notedUpTo below.length = run.notedUpTo below.length → later.Clears table rest) :
    run.Clears table below := by
  induction symbols generalizing run with
  | nil => exact .uncovers (.refl run) ⟨stack, rfl, rfl⟩
  | cons symbol rest ih =>
    have low : below.length ≤ (rest ++ below).length := by simp
    have first : run.Clears table (rest ++ below) :=
      each symbol (by simp) run _ stack low rfl rfl
    refine first.andThen low ?_
    intro later down
    have noted := notedUpTo_of_le low down.noted
    apply ih down.stack
    intro other member last tail high height same kept
    exact each other (by simp [member]) last tail high height (same.trans down.remaining)
      (kept.trans noted)

/-! ### One symbol -/

theorem clears_of_pop (reached : Reaches true table run later)
    (popped : later.configuration = run.configuration.pop)
    (stack : run.configuration.stack = top :: below) : run.Clears table below := by
  refine .uncovers reached ⟨?_, ?_, ?_⟩
  · simp [popped, stack]
  · simp [popped]
  · simp [notedUpTo, popped, Configuration.pop, stack, List.filter_filter]

/-- The lookahead on the top is consumed, if not all of the input is. -/
theorem reads_lookahead (unread : run.configuration.remaining ≠ [])
    (stack : run.configuration.stack = top :: upper) (leaf : top.IsLeaf)
    (same : top = run.configuration.lookahead) (more : upper = [] → top ≠ .endOfInput) :
    run.Clears table below := by
  refine .reads (.of_advances stack (.consume leaf same more)) ?_
  have some := List.length_pos_iff.mpr unread
  simp only [configuration_moveTo, Configuration.remaining_consume, List.length_tail]
  omega

theorem clears_visible (unread : run.configuration.remaining ≠ [])
    (stack : run.configuration.stack = top :: below) (kind : top.isNonterminal = false) :
    run.Clears table below := by
  rcases step_cases true table stack with
    ⟨next, stepped, advance⟩ | ⟨result, stepped, _⟩ | ⟨_, _, other, _⟩
  · cases advance with
    | dropEpsilon | skipLeaf => exact clears_of_pop (.single stepped) rfl stack
    | consume leaf same more => exact reads_lookahead unread stack leaf same more
    | expand other | skipNonterminal other => simp [kind] at other
  · exact .ends (result?_of_end stepped)
  · simp [kind] at other

/-- A non-terminal is expanded, unless it is cleared at once or the guard stops the run. -/
theorem clears_or_expands (named : table.Named)
    (stack : run.configuration.stack = top :: below) (kind : top.isNonterminal = true) :
    run.Clears table below ∨ run.configuration.isOpen top = false ∧
      ∃ production, table.productionAt top run.configuration.lookahead = .ok (some production) := by
  rcases step_cases true table stack with
    ⟨next, stepped, advance⟩ | ⟨result, stepped, _⟩ | ⟨_, _, _, failed⟩
  · cases advance with
    | dropEpsilon | skipLeaf | skipNonterminal =>
      exact .inl (clears_of_pop (.single stepped) rfl stack)
    | consume leaf => simp [leaf.1] at kind
    | expand _ filled fresh => exact .inr ⟨fresh rfl, _, filled⟩
  · exact .inl (.ends (result?_of_end stepped))
  · exact absurd failed named.productionAt_ne_error

theorem reads_within {front behind : List Symbol} (unread : run.configuration.remaining ≠ [])
    (leaf : lookahead.IsLeaf) (visible : lookahead ≠ .endOfInput)
    (seen : run.configuration.lookahead = lookahead)
    (stack : run.configuration.stack = front ++ lookahead :: behind)
    (low : below.length ≤ behind.length)
    (each : ∀ symbol ∈ front, ∀ (later : Run) (rest : List Symbol),
      later.configuration.stack = symbol :: rest → (lookahead :: behind).length ≤ rest.length →
        later.configuration.remaining = run.configuration.remaining →
          later.notedUpTo (lookahead :: behind).length =
              run.notedUpTo (lookahead :: behind).length → later.Clears table rest) :
    run.Clears table below := by
  refine (clears_all stack each).andThen (Nat.le_succ_of_le low) ?_
  intro later down
  have same : lookahead = later.configuration.lookahead := by
    rw [Configuration.lookahead, down.remaining, ← Configuration.lookahead, seen]
  exact reads_lookahead (by rwa [down.remaining]) down.stack leaf same fun _ => visible

/-! ### Right-hand sides -/

/-- Where more is noted, the top of the stack is cleared. -/
def ClearsDeeper (table : ParseTable) (remaining : List Symbol) (noted : List (Symbol × Nat)) :
    Prop :=
  ∀ (run : Run) (top : Symbol) (below : List Symbol), run.configuration.stack = top :: below →
    run.configuration.remaining = remaining →
      (table.unnoted (run.notedUpTo below.length)).card < (table.unnoted noted).card →
        run.Clears table below

/-- What a run goes on with after an expansion. -/
structure Expanded (later run : Run) (top : Symbol) (production : Production)
    (below : List Symbol) : Prop where
  stack : later.configuration.stack = production.rhs ++ below
  remaining : later.configuration.remaining = run.configuration.remaining
  notes : later.configuration.expansions =
    (top, below.length + 1) :: run.notedUpTo below.length

theorem expanded (run : Run) (production : Production)
    (stack : run.configuration.stack = top :: below) :
    Expanded ((run.record ⟨.expand, some production⟩).moveTo
      (run.configuration.expand top production)) run top production below where
  stack := by simp [stack]
  remaining := rfl
  notes := by simp [Configuration.expand, Configuration.pop, stack, notedUpTo]

theorem Expanded.noted (expanded : later.Expanded run top production below) :
    later.notedUpTo below.length = run.notedUpTo below.length := by
  simp [notedUpTo, expanded.notes, List.filter_filter]

theorem Expanded.noted_all (expanded : later.Expanded run top production below) :
    later.notedUpTo (below.length + 1) = later.configuration.expansions := by
  rw [notedUpTo, List.filter_eq_self]
  intro entry member
  rw [expanded.notes] at member
  rcases List.mem_cons.mp member with rfl | member
  · simp
  · simp only [notedUpTo, List.mem_filter, decide_eq_true_eq] at member ⊢
    exact Nat.le_succ_of_le member.2

/-- The symbols of a right-hand side before the last are cleared, with the top noted. -/
theorem Expanded.clears_front (expanded : later.Expanded run top production below)
    (owned : top ∈ table.owners) (fresh : run.configuration.isOpen top = false)
    (deeper : ClearsDeeper table run.configuration.remaining (run.notedUpTo below.length))
    {base : List Symbol} (high : below.length < base.length) :
    ∀ (next : Run) (symbol : Symbol) (rest : List Symbol),
      next.configuration.stack = symbol :: rest → base.length ≤ rest.length →
        next.configuration.remaining = later.configuration.remaining →
          next.notedUpTo base.length = later.notedUpTo base.length → next.Clears table rest := by
  intro next symbol rest stack le same noted
  apply deeper next symbol rest stack (same.trans expanded.remaining)
  have grown : ∀ entry ∈ later.configuration.expansions, entry ∈ next.notedUpTo rest.length := by
    intro entry member
    rw [← expanded.noted_all] at member
    apply notedUpTo_subset le
    rw [noted]
    exact notedUpTo_subset high member
  rw [expanded.notes] at grown
  apply ParseTable.card_unnoted_lt owned
  · intro entry member same
    have noted := (List.mem_filter.mp member).1
    have opened : run.configuration.isOpen top = true :=
      List.any_eq_true.mpr ⟨entry, noted, by simpa using same⟩
    simp [opened] at fresh
  · exact ⟨(top, below.length + 1), grown _ (by simp), rfl⟩
  · exact fun entry member => grown entry (by simp [member])

/-- A run that has come down to the last symbol of an expansion, a non-terminal. -/
structure PassesOn (table : ParseTable) (later run : Run) (top final : Symbol)
    (below : List Symbol) : Prop where
  stack : later.configuration.stack = final :: below
  remaining : later.configuration.remaining = run.configuration.remaining
  noted : later.notedUpTo below.length = run.notedUpTo below.length
  opened : later.configuration.isOpen top = true
  kind : final.isNonterminal = true
  hands : table.HandsOver run.configuration.lookahead top final

/-- An expansion is cleared, unless the run comes down to a last symbol that the top hands over
to. -/
theorem clears_or_passes_on (unread : run.configuration.remaining ≠ [])
    (leaf : run.configuration.lookahead.IsLeaf) (stack : run.configuration.stack = top :: below)
    (kind : top.isNonterminal = true)
    (filled : table.productionAt top run.configuration.lookahead = .ok (some production))
    (fresh : run.configuration.isOpen top = false)
    (deeper : ClearsDeeper table run.configuration.remaining (run.notedUpTo below.length)) :
    run.Clears table below ∨
      ∃ later final, Reaches true table run later ∧ later.PassesOn table run top final below := by
  obtain ⟨next, reached, expanded⟩ : ∃ next, Reaches true table run next ∧
      next.Expanded run top production below :=
    ⟨_, .of_advances stack (.expand kind filled fun _ => fresh), run.expanded production stack⟩
  have owned := ParseTable.mem_owners filled
  have seen : next.configuration.lookahead = run.configuration.lookahead := by
    rw [Configuration.lookahead, expanded.remaining, Configuration.lookahead]
  have clears : next.Clears table below → run.Clears table below :=
    .after reached expanded.remaining expanded.noted
  rcases List.eq_nil_or_concat production.rhs with empty | ⟨front, final, split⟩
  · exact .inl (clears (.uncovers (.refl next) ⟨by simp [expanded.stack, empty], rfl, rfl⟩))
  · rw [List.concat_eq_append] at split
    have pushed : next.configuration.stack = front ++ final :: below := by
      simp [expanded.stack, split]
    by_cases inside : run.configuration.lookahead ∈ front
    · -- the lookahead itself comes to the top before the last symbol does
      obtain ⟨before, after, rfl⟩ := List.append_of_mem inside
      have written : run.configuration.lookahead ∈ production.rhs := by simp [split]
      have visible : run.configuration.lookahead ≠ .endOfInput := fun same =>
        Grammar.kind_ne_endOfInput (ParseTable.productionAt_eq_some filled).2 written
          (by rw [same]; rfl)
      have within : next.configuration.stack =
          before ++ run.configuration.lookahead :: (after ++ final :: below) := by simp [pushed]
      refine .inl (clears (reads_within (by rwa [expanded.remaining]) leaf visible seen within
        (by simp; omega) ?_))
      intro symbol _
      exact fun later => expanded.clears_front owned fresh deeper (by simp; omega) later symbol
    · have down : next.Clears table (final :: below) := by
        apply clears_all pushed
        intro symbol _
        exact fun later => expanded.clears_front owned fresh deeper (by simp) later symbol
      cases down with
      | ends ended => exact .inl (clears (.ends ended))
      | reads onward less => exact .inl (clears (.reads onward less))
      | @uncovers later onward down =>
        have noted := notedUpTo_of_le (Nat.le_succ below.length) down.noted
        cases last : final.isNonterminal with
        | false =>
          have unread : later.configuration.remaining ≠ [] := by
            rwa [down.remaining, expanded.remaining]
          exact .inl (clears (.after onward down.remaining noted
            (clears_visible unread down.stack last)))
        | true =>
          refine .inr ⟨later, final, reached.trans onward, down.stack,
            down.remaining.trans expanded.remaining, noted.trans expanded.noted, ?_, last,
            production, filled, by simp [split], last, ?_⟩
          · have member : (top, below.length + 1) ∈ later.notedUpTo (final :: below).length := by
              rw [down.noted, List.length_cons, expanded.noted_all, expanded.notes]
              exact List.mem_cons_self
            exact List.any_eq_true.mpr ⟨_, (List.mem_filter.mp member).1, by simp⟩
          · rw [split, List.mem_append, List.mem_singleton, not_or]
            refine ⟨inside, ?_⟩
            rintro rfl
            simp [leaf.1] at last

end Run

/-! ### One height of the stack -/

/-- The symbols that have handed over to each other at one height, in order, and the symbol that
is there now. -/
structure ParseTable.Trail (table : ParseTable) (lookahead : Symbol) (passed : List Symbol)
    (top : Symbol) : Prop where
  distinct : passed.Nodup
  owned : ∀ symbol ∈ passed, symbol ∈ table.owners
  linked : List.IsChain (table.HandsOver lookahead) (passed ++ [top])

namespace ParseTable.Trail

variable {table : ParseTable} {lookahead top final : Symbol} {passed : List Symbol}

theorem start (table : ParseTable) (lookahead top : Symbol) : table.Trail lookahead [] top :=
  ⟨List.nodup_nil, by simp, by simp⟩

theorem extend (trail : table.Trail lookahead passed top) (new : top ∉ passed)
    (owned : top ∈ table.owners) (hands : table.HandsOver lookahead top final) :
    table.Trail lookahead (passed ++ [top]) final where
  distinct := by
    rw [← List.concat_eq_append]
    exact trail.distinct.concat new
  owned := by
    intro symbol member
    rcases List.mem_append.mp member with old | same
    · exact trail.owned symbol old
    · rwa [List.mem_singleton.mp same]
  linked := by
    rw [List.isChain_append]
    refine ⟨trail.linked, by simp, ?_⟩
    simpa using hands

theorem length_le (trail : table.Trail lookahead passed top) :
    passed.length ≤ table.owners.card := by
  rw [← List.toFinset_card_of_nodup trail.distinct]
  apply Finset.card_le_card
  intro symbol member
  exact trail.owned symbol (List.mem_toFinset.mp member)

/-- A symbol that comes again, and not at once, has gone around. -/
theorem goesAround (trail : table.Trail lookahead passed top) (again : top ∈ passed)
    (late : passed.getLast? ≠ some top) : table.GoesAround lookahead := by
  obtain ⟨front, behind, rfl⟩ := List.append_of_mem again
  refine ⟨top, behind, ?_, ?_, ?_⟩
  · rintro rfl
    simp at late
  · exact trail.distinct.sublist (List.sublist_append_right _ _)
  · have linked := trail.linked
    rw [List.append_assoc] at linked
    exact linked.right_of_append

end ParseTable.Trail

namespace Run

variable {table : ParseTable} {lookahead : Symbol} {below : List Symbol}

/-- At one height, symbols hand over to each other until one is cleared. -/
theorem clears_trail (named : table.Named) (around : ¬table.GoesAround lookahead)
    (leaf : lookahead.IsLeaf) (run : Run) (passed : List Symbol) (top : Symbol)
    (trail : table.Trail lookahead passed top)
    (seen : run.configuration.lookahead = lookahead) (unread : run.configuration.remaining ≠ [])
    (stack : run.configuration.stack = top :: below) (kind : top.isNonterminal = true)
    (opened : ∀ symbol, passed.getLast? = some symbol → run.configuration.isOpen symbol = true)
    (deeper : ClearsDeeper table run.configuration.remaining (run.notedUpTo below.length)) :
    run.Clears table below := by
  rcases clears_or_expands named stack kind with clears | ⟨fresh, production, filled⟩
  · exact clears
  · rcases clears_or_passes_on unread (by rwa [seen]) stack kind filled fresh deeper with
      clears | ⟨later, final, reached, passes⟩
    · exact clears
    · have new : top ∉ passed := by
        intro again
        -- the symbol before is noted, so it cannot come again at once
        refine around (trail.goesAround again fun last => ?_)
        simp [opened top last] at fresh
      have owned := ParseTable.mem_owners filled
      have longer := trail.extend new owned (seen ▸ passes.hands)
      have within := longer.length_le
      refine .after reached passes.remaining passes.noted
        (clears_trail named around leaf later (passed ++ [top]) final longer ?_ ?_ passes.stack
          passes.kind ?_ ?_)
      · rw [Configuration.lookahead, passes.remaining, ← Configuration.lookahead, seen]
      · rwa [passes.remaining]
      · intro symbol last
        obtain rfl : top = symbol := by simpa using last
        exact passes.opened
      · rwa [passes.remaining, passes.noted]
termination_by table.owners.card - passed.length
decreasing_by
  simp only [List.length_append, List.length_singleton] at within ⊢
  omega

/-- The top of the stack is cleared: while a run works on it, more and more symbols are noted. -/
theorem clears_top (named : table.Named) (around : ¬table.GoesAround lookahead)
    (leaf : lookahead.IsLeaf) (run : Run) (top : Symbol) (below : List Symbol)
    (seen : run.configuration.lookahead = lookahead) (unread : run.configuration.remaining ≠ [])
    (stack : run.configuration.stack = top :: below) : run.Clears table below := by
  cases kind : top.isNonterminal with
  | false => exact clears_visible unread stack kind
  | true =>
    refine clears_trail named around leaf run [] top (.start table lookahead top) seen unread stack
      kind (by simp) ?_
    intro later symbol rest top_later same fewer
    refine clears_top named around leaf later symbol rest ?_ (by rwa [same]) top_later
    rw [Configuration.lookahead, same, ← Configuration.lookahead, seen]
termination_by (table.unnoted (run.notedUpTo below.length)).card

/-! ### The end of a run -/

/-- A run that accounts for its input ends, if no lookahead makes symbols go around. -/
theorem halts_of_not_goesAround (named : table.Named) {input : List Symbol}
    (leaves : ∀ symbol ∈ input, symbol.IsLeaf)
    (around : ∀ lookahead ∈ input ++ [.endOfInput], ¬table.GoesAround lookahead) (run : Run)
    (accounted : run.Accounted input) :
    ∃ limit result, run.result? true table limit = some (.ok result) := by
  cases stack : run.configuration.stack with
  | nil => exact ⟨1, _, result?_of_end (step_nil stack)⟩
  | cons top below =>
    obtain ⟨rest, remaining, whole⟩ := accounted.read
    have ahead : run.configuration.lookahead ∈ input ++ [.endOfInput] := by
      rw [← whole, Configuration.lookahead, remaining]
      cases rest <;> simp
    have leaf : run.configuration.lookahead.IsLeaf := by
      rcases List.mem_append.mp ahead with inside | ending
      · exact leaves _ inside
      · rw [List.mem_singleton.mp ending]
        exact ⟨rfl, by decide⟩
    cases clears_top named (around _ ahead) leaf run top below rfl (by simp [remaining]) stack with
    | @ends limit result ended => exact ⟨limit, result, ended⟩
    | @reads later reached less =>
      obtain ⟨_, result, ended⟩ :=
        halts_of_not_goesAround named leaves around later (accounted.reaches reached)
      obtain ⟨limit, ended⟩ := reached.result? ended
      exact ⟨limit, result, ended⟩
    | @uncovers later reached down =>
      obtain ⟨_, result, ended⟩ :=
        halts_of_not_goesAround named leaves around later (accounted.reaches reached)
      obtain ⟨limit, ended⟩ := reached.result? ended
      exact ⟨limit, result, ended⟩
termination_by (run.configuration.remaining.length, run.configuration.stack.length)
decreasing_by
  · exact Prod.Lex.left _ _ less
  · rw [down.remaining, down.stack, stack]
    exact Prod.Lex.right _ (Nat.lt_succ_self _)

end Run

namespace ParseTable

variable {table : ParseTable} {lookahead : Symbol}

/-- Nothing goes around where a rank falls whenever a symbol hands over to another one. -/
theorem not_goesAround_of_rank (rank : Symbol → Nat)
    (falls : ∀ first second, table.HandsOver lookahead first second → first ≠ second →
      rank second < rank first) : ¬table.GoesAround lookahead := by
  rintro ⟨first, rest, more, distinct, linked⟩
  cases rest with
  | nil => exact more rfl
  | cons second rest =>
    obtain ⟨hands, linked⟩ := List.isChain_cons_cons.mp linked
    have other : first ≠ second := fun same => (List.nodup_cons.mp distinct).1 (by simp [same])
    have low := falls first second hands other
    -- from the second symbol on the rank never rises, so it does not come back to the first
    have sinking : List.IsChain (fun left right => rank right ≤ rank left)
        (second :: (rest ++ [first])) := by
      refine linked.imp ?_
      intro left right hands
      by_cases same : left = right
      · rw [same]
      · exact Nat.le_of_lt (falls left right hands same)
    have back := List.IsChain.rel_cons sinking (show first ∈ rest ++ [first] by simp)
    omega

/-- Every parse ends, over any table that names productions of its grammar, if no lookahead of the
input makes two or more non-terminals go around: it ends with the acceptance of the input, at a
stall, or with an empty stack. -/
theorem parse_ends_unless_goes_around (table : ParseTable) (named : table.Named)
    (names : List String) (free : ∀ name ∈ names, Symbol.isReservedName name = false)
    (around : ∀ lookahead ∈ names.map Symbol.terminal ++ [.endOfInput],
      ¬table.GoesAround lookahead) :
    ∃ limit result, table.parseNames? limit names = some (.ok result) ∧
      ∃ last, Run.Reaches true table
          (Run.initial table.grammar.start (names.map Symbol.terminal)) last ∧
        last.Ends true table result := by
  have accounted := Run.Accounted.initial
    (Grammar.isNonterminal_of_mem table.grammar.start_mem) (names.map Symbol.terminal)
  obtain ⟨limit, result, ended⟩ := Run.halts_of_not_goesAround named
    (fun symbol member => (clean_of_mem_terminals symbol member).1) around _ accounted
  rw [← parseNames?_eq free] at ended
  exact ⟨limit, result, ended, (exists_last_of_parseNames? ended).2⟩

end ParseTable

/-- A table with left recursion, an empty right-hand side, a right-hand side that ends with its own
left-hand side, and two non-terminals that would go around if the lookahead were not between
them. -/
def boundedSample : ParseTable where
  grammar :=
    { productions :=
        [⟨1, .nonterminal "S", [.terminal "a", .nonterminal "A"]⟩,
         ⟨2, .nonterminal "A", [.nonterminal "S"]⟩,
         ⟨3, .nonterminal "S", [.nonterminal "A", .nonterminal "S", .nonterminal "S"]⟩,
         ⟨4, .nonterminal "A", []⟩]
      start := .nonterminal "S"
      sound := by decide }
  cells :=
    [⟨.nonterminal "S", .terminal "a", 1⟩, ⟨.nonterminal "A", .terminal "a", 2⟩,
     ⟨.nonterminal "A", .terminal "b", 4⟩, ⟨.nonterminal "S", .endOfInput, 3⟩,
     ⟨.nonterminal "A", .endOfInput, 2⟩]

namespace ParseTable

/-- This input ends at a stall. -/
theorem parse_ends_unless_goes_around_bounded :
    boundedSample.Named ∧
      (∀ lookahead ∈ ["a"].map Symbol.terminal ++ [.endOfInput],
        ¬boundedSample.GoesAround lookahead) ∧
      ∃ limit result, boundedSample.parseNames? limit ["a"] = some (.ok result) ∧
        ∃ last, Run.Reaches true boundedSample
            (Run.initial (.nonterminal "S") [.terminal "a"]) last ∧
          last.Ends true boundedSample result := by
  have named : boundedSample.Named := (faithful_of_cells (by decide)).named
  have around : ∀ lookahead ∈ ["a"].map Symbol.terminal ++ [.endOfInput],
      ¬boundedSample.GoesAround lookahead := by
    intro lookahead ahead
    apply not_goesAround_of_rank fun symbol => if symbol = .nonterminal "A" then 1 else 0
    rintro first second ⟨production, filled, last, _, absent⟩ other
    have owned : first = .nonterminal "S" ∨ first = .nonterminal "A" := by
      simpa [owners, boundedSample] using mem_owners filled
    have seen : lookahead = .terminal "a" ∨ lookahead = .endOfInput := by
      simpa using ahead
    rcases owned with rfl | rfl <;> rcases seen with rfl | rfl <;> cases filled
    · -- the right-hand side contains the lookahead
      simp at absent
    · -- the right-hand side ends with its left-hand side
      cases last
      exact absurd rfl other
    · cases last
      decide
    · cases last
      decide
  exact ⟨named, around,
    parse_ends_unless_goes_around boundedSample named ["a"] (by decide) around⟩

end ParseTable

end Predictive
