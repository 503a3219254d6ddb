import Predictive.Proofs.FirstDescent
import Predictive.Proofs.FollowRounds

/-! Descents that write down what they enter. The descents for FIRST keep the non-terminals in
progress as part of their state, and note them whenever they enter one; those for FOLLOW note each
non-terminal that they enter. Both compute what the descents without notes compute. As what is in
progress or has a set is not entered again, the notes for FIRST never show a non-terminal twice in
progress, and those of a round for FOLLOW show every non-terminal once. -/

set_option autoImplicit false

namespace Predictive

/-! ### FIRST -/

/-- The finished sets, the non-terminals in progress, and what was in progress together whenever one
of them was entered. -/
structure FirstRun where
  finished : Assignment
  progress : List Symbol
  notes : List (List Symbol)

namespace FirstRun

def enter (run : FirstRun) (symbol : Symbol) : FirstRun :=
  { run with progress := symbol :: run.progress, notes := (symbol :: run.progress) :: run.notes }

/-- A symbol is finished with a set, and no longer in progress. -/
def leave (run : FirstRun) (symbol : Symbol) (set : SymbolSet) : FirstRun :=
  { run with finished := run.finished.add symbol set, progress := run.progress.erase symbol }

end FirstRun

namespace Grammar

/-- As `scanFirst`, with notes. -/
def scanNoted (ask : FirstRun → Symbol → SymbolSet × FirstRun) :
    FirstRun → List Symbol → SymbolSet × FirstRun
  | run, [] => (.singleton .epsilon, run)
  | run, symbol :: rest =>
    let (leading, run) := ask run symbol
    if .epsilon ∈ leading then
      let (others, run) := scanNoted ask run rest
      ((leading.without .epsilon).union others, run)
    else (leading, run)

/-- As `collectFirst`, with notes. -/
def collectNoted (ask : FirstRun → Symbol → SymbolSet × FirstRun) :
    FirstRun → List Production → SymbolSet × FirstRun
  | run, [] => (.empty, run)
  | run, production :: rest =>
    let (found, run) := scanNoted ask run production.rhs
    let (others, run) := collectNoted ask run rest
    (found.union others, run)

/-- As `firstByDescent`, with notes. -/
def firstNoted (grammar : Grammar) : (depth : Nat) → FirstRun → Symbol → SymbolSet × FirstRun
  | 0, run, _ => (.empty, run)
  | depth + 1, run, symbol =>
    if !symbol.isNonterminal then (.singleton symbol, run)
    else match run.finished.find? symbol with
      | some set => (set, run)
      | none =>
        if run.progress.contains symbol then (.empty, run)
        else
          let (set, run) := collectNoted (grammar.firstNoted depth) (run.enter symbol)
            (grammar.productionsOf symbol)
          (set, run.leave symbol set)

/-- One descent from each non-terminal, as `firstByRecursion` makes them, where `depth` bounds how
deep they may go. -/
def firstRun (grammar : Grammar) (depth : Nat) : FirstRun :=
  grammar.nonTerminals.foldl (fun run symbol => (grammar.firstNoted depth run symbol).2)
    ⟨.empty, [], []⟩

/-- Non-terminals that can be in progress together: no symbol twice, none that is unknown. -/
structure Together (grammar : Grammar) (symbols : List Symbol) : Prop where
  distinct : symbols.Nodup
  declared : ∀ symbol ∈ symbols, symbol ∈ grammar.nonTerminals

/-- A later run, in which what was put in progress is taken back. -/
structure Proceeds (grammar : Grammar) (run next : FirstRun) : Prop where
  progress : next.progress = run.progress
  together : ∀ symbols ∈ next.notes, symbols ∈ run.notes ∨ grammar.Together symbols

/-- What is done with notes is what is done without. -/
structure Notes (grammar : Grammar) (run : FirstRun) (plain : SymbolSet × Assignment)
    (noted : SymbolSet × FirstRun) : Prop where
  answer : noted.1 = plain.1
  finished : noted.2.finished = plain.2
  proceeds : grammar.Proceeds run noted.2

variable {grammar : Grammar} {run next last : FirstRun} {symbol : Symbol}
  {symbols progress : List Symbol}

theorem Together.length_le (together : grammar.Together symbols) :
    symbols.length ≤ grammar.nonTerminals.length :=
  (together.distinct.subperm together.declared).length_le

theorem Together.cons (together : grammar.Together symbols) (fresh : symbol ∉ symbols)
    (known : symbol ∈ grammar.nonTerminals) : grammar.Together (symbol :: symbols) :=
  ⟨List.nodup_cons.mpr ⟨fresh, together.distinct⟩,
    List.forall_mem_cons.mpr ⟨known, together.declared⟩⟩

theorem Proceeds.refl (run : FirstRun) : grammar.Proceeds run run :=
  ⟨rfl, fun _ noted => .inl noted⟩

theorem Proceeds.trans (early : grammar.Proceeds run next) (late : grammar.Proceeds next last) :
    grammar.Proceeds run last where
  progress := late.progress.trans early.progress
  together symbols noted := (late.together symbols noted).elim (early.together symbols) .inr

theorem Notes.refl (run : FirstRun) (set : SymbolSet) :
    grammar.Notes run (set, run.finished) (set, run) :=
  ⟨rfl, rfl, .refl run⟩

/-- What is done while a symbol is in progress, and then the symbol is finished. -/
theorem Notes.leave {plain : SymbolSet × Assignment} {noted : SymbolSet × FirstRun}
    (notes : grammar.Notes (run.enter symbol) plain noted)
    (entered : grammar.Together (symbol :: run.progress)) :
    grammar.Notes run (plain.1, plain.2.add symbol plain.1)
      (noted.1, noted.2.leave symbol noted.1) := by
  unfold FirstRun.leave
  refine ⟨notes.answer, ?_, ?_, ?_⟩
  · dsimp only
    rw [notes.answer, notes.finished]
  · dsimp only
    rw [notes.proceeds.progress]
    exact List.erase_cons_head _ _
  · intro symbols noted
    rcases notes.proceeds.together symbols noted with earlier | together
    · rcases List.mem_cons.mp earlier with rfl | earlier
      · exact .inr entered
      · exact .inl earlier
    · exact .inr together

section
variable {ask : FirstRun → Symbol → SymbolSet × FirstRun}
  {plain : Assignment → Symbol → SymbolSet × Assignment}

theorem scanNoted_notes
    (asked : ∀ run : FirstRun, run.progress = progress → ∀ symbol ∈ symbols,
      grammar.Notes run (plain run.finished symbol) (ask run symbol))
    (same : run.progress = progress) :
    grammar.Notes run (scanFirst plain run.finished symbols) (scanNoted ask run symbols) := by
  induction symbols generalizing run with
  | nil => exact .refl run _
  | cons symbol rest ih =>
    have own := asked run same symbol (by simp)
    have later := ih (fun run same other member => asked run same other
      (List.mem_cons_of_mem _ member)) (own.proceeds.progress.trans same)
    rw [own.finished] at later
    unfold scanNoted scanFirst
    dsimp only
    rw [own.answer]
    split
    · refine ⟨?_, later.finished, own.proceeds.trans later.proceeds⟩
      dsimp only
      rw [later.answer]
    · exact ⟨rfl, own.finished, own.proceeds⟩

theorem collectNoted_notes {productions : List Production}
    (asked : ∀ run : FirstRun, run.progress = progress → ∀ production ∈ productions,
      grammar.Notes run (scanFirst plain run.finished production.rhs)
        (scanNoted ask run production.rhs))
    (same : run.progress = progress) :
    grammar.Notes run (collectFirst plain run.finished productions)
      (collectNoted ask run productions) := by
  induction productions generalizing run with
  | nil => exact .refl run _
  | cons production rest ih =>
    have own := asked run same production (by simp)
    have later := ih (fun run same other member => asked run same other
      (List.mem_cons_of_mem _ member)) (own.proceeds.progress.trans same)
    rw [own.finished] at later
    unfold collectNoted collectFirst
    dsimp only
    refine ⟨?_, later.finished, own.proceeds.trans later.proceeds⟩
    rw [own.answer, later.answer]

end

/-- However deep a descent may go, what is in progress together are different non-terminals. -/
theorem firstNoted_notes (depth : Nat) (together : grammar.Together run.progress)
    (known : symbol.isNonterminal = true → symbol ∈ grammar.nonTerminals) :
    grammar.Notes run (grammar.firstByDescent depth run.progress run.finished symbol)
      (grammar.firstNoted depth run symbol) := by
  induction depth generalizing run symbol with
  | zero => exact .refl run _
  | succ depth ih =>
    unfold firstNoted firstByDescent
    cases kind : symbol.isNonterminal with
    | false => exact .refl run _
    | true =>
      cases found : run.finished.find? symbol with
      | some set => exact .refl run set
      | none =>
        by_cases again : run.progress.contains symbol = true
        · simp only [Bool.not_true, Bool.false_eq_true, if_false, again, if_true]
          exact .refl run _
        · simp only [Bool.not_true, Bool.false_eq_true, if_false, again]
          have entered : grammar.Together (symbol :: run.progress) :=
            together.cons (by simpa using again) (known kind)
          -- the symbol is in progress during all that its productions ask for
          have asked : ∀ next : FirstRun, next.progress = symbol :: run.progress →
              ∀ production ∈ grammar.productionsOf symbol,
                grammar.Notes next
                  (scanFirst (grammar.firstByDescent depth (symbol :: run.progress)) next.finished
                    production.rhs)
                  (scanNoted (grammar.firstNoted depth) next production.rhs) := by
            intro next same production own
            refine scanNoted_notes ?_ same
            intro next same other member
            rw [← same]
            exact ih (same ▸ entered)
              (mem_nonTerminals_of_rhs (mem_productionsOf.mp own).1 member)
          have collected : grammar.Notes (run.enter symbol) _ _ := collectNoted_notes asked rfl
          exact collected.leave entered

/-! ### The depth of a descent for FIRST -/

section
variable {ask other : Assignment → Symbol → SymbolSet × Assignment} {finished : Assignment}

theorem scanFirst_congr (same : ∀ finished, ∀ symbol ∈ symbols,
      ask finished symbol = other finished symbol) :
    scanFirst ask finished symbols = scanFirst other finished symbols := by
  induction symbols generalizing finished with
  | nil => rfl
  | cons symbol rest ih =>
    obtain ⟨own, later⟩ := List.forall_mem_cons.mp fun symbol member finished =>
      same finished symbol member
    unfold scanFirst
    dsimp only
    rw [own finished, ih fun finished symbol member => later symbol member finished]

theorem collectFirst_congr {productions : List Production}
    (same : ∀ production ∈ productions, ∀ finished, ∀ symbol ∈ production.rhs,
      ask finished symbol = other finished symbol) :
    collectFirst ask finished productions = collectFirst other finished productions := by
  induction productions generalizing finished with
  | nil => rfl
  | cons production rest ih =>
    obtain ⟨own, later⟩ := List.forall_mem_cons.mp same
    unfold collectFirst
    dsimp only
    rw [scanFirst_congr own, ih later]

/-- Two depths that exceed the number of non-terminals that are not in progress make no
difference. -/
theorem firstByDescent_depth {depth more : Nat} (together : grammar.Together progress)
    (known : symbol.isNonterminal = true → symbol ∈ grammar.nonTerminals)
    (enough : grammar.nonTerminals.length < progress.length + depth)
    (plenty : grammar.nonTerminals.length < progress.length + more) :
    grammar.firstByDescent depth progress finished symbol =
      grammar.firstByDescent more progress finished symbol := by
  induction depth generalizing more progress finished symbol with
  | zero => exact absurd together.length_le (by omega)
  | succ depth ih =>
    cases more with
    | zero => exact absurd together.length_le (by omega)
    | succ more =>
      unfold firstByDescent
      cases kind : symbol.isNonterminal with
      | false => rfl
      | true =>
        cases found : finished.find? symbol with
        | some set => rfl
        | none =>
          by_cases again : progress.contains symbol = true
          · simp only [again, if_true]
          · have entered : grammar.Together (symbol :: progress) :=
              together.cons (by simpa using again) (known kind)
            have below : ∀ production ∈ grammar.productionsOf symbol, ∀ finished,
                ∀ other ∈ production.rhs,
                  grammar.firstByDescent depth (symbol :: progress) finished other =
                    grammar.firstByDescent more (symbol :: progress) finished other := by
              -- one more is in progress there, so the depths below exceed what is left again
              intro production own finished other member
              refine ih entered (mem_nonTerminals_of_rhs (mem_productionsOf.mp own).1 member) ?_ ?_
              · rw [List.length_cons]
                omega
              · rw [List.length_cons]
                omega
            simp only [Bool.not_true, Bool.false_eq_true, if_false, again, collectFirst_congr below]

end

/-- Descents from some non-terminals with notes, and those without. -/
theorem foldl_firstNoted (depth : Nat) (listed : ∀ symbol ∈ symbols, symbol ∈ grammar.nonTerminals)
    (idle : run.progress = []) :
    let last := symbols.foldl (fun run symbol => (grammar.firstNoted depth run symbol).2) run
    last.finished = symbols.foldl
        (fun finished symbol => (grammar.firstByDescent depth [] finished symbol).2) run.finished ∧
      grammar.Proceeds run last := by
  induction symbols generalizing run with
  | nil => exact ⟨rfl, .refl run⟩
  | cons symbol rest ih =>
    obtain ⟨known, others⟩ := List.forall_mem_cons.mp listed
    -- between two descents nothing is in progress
    have alone : grammar.Together run.progress := by
      rw [idle]
      exact ⟨List.nodup_nil, by simp⟩
    have own : grammar.Notes run _ _ := firstNoted_notes depth alone fun _ => known
    obtain ⟨finished, proceeds⟩ := ih others (own.proceeds.progress.trans idle)
    rw [own.finished, idle] at finished
    exact ⟨finished, own.proceeds.trans proceeds⟩

/-- The descents for FIRST never have the same non-terminal in progress twice. With a depth above
the number of non-terminals they are those without notes. -/
theorem firstRun_spec (grammar : Grammar) (depth : Nat) :
    (∀ symbols ∈ (grammar.firstRun depth).notes, grammar.Together symbols) ∧
      (grammar.nonTerminals.length < depth →
        (grammar.firstRun depth).finished = grammar.firstByRecursion) := by
  have idle : (⟨.empty, [], []⟩ : FirstRun).progress = [] := rfl
  obtain ⟨finished, proceeds⟩ := foldl_firstNoted depth (fun symbol listed => listed) idle
  refine ⟨fun symbols noted => (proceeds.together symbols noted).resolve_left (by simp), ?_⟩
  intro enough
  refine finished.trans (List.foldl_ext _ _ _ fun finished symbol known => ?_)
  refine congrArg Prod.snd (firstByDescent_depth ⟨List.nodup_nil, by simp⟩ (fun _ => known) ?_ ?_)
  · simpa using enough
  · simp

end Grammar

/-! ### FOLLOW -/

/-- The sets on the way of a round for FOLLOW, with the non-terminals that were entered, the last
one first. -/
structure FollowRun where
  state : FollowState
  entered : List Symbol

namespace Grammar

variable {grammar : Grammar} {first seeds : Assignment} {run next : FollowRun} {symbol : Symbol}
  {place : Occurrence}

/-- As `visitByDescent`, with notes. -/
def visitNoted (first : Assignment) (ask : FollowRun → Symbol → FollowRun) (run : FollowRun)
    (place : Occurrence) : FollowRun :=
  let (trailing, state) :=
    if place.rest.isEmpty then (true, run.state)
    else
      let (found, cache) := run.state.cache.request first place.rest
      (decide (.epsilon ∈ found),
        FollowState.add { run.state with cache := cache } place.symbol (found.without .epsilon))
  let run := { run with state := state }
  if trailing && place.lhs ≠ place.symbol then
    let run := ask run place.lhs
    { run with state := run.state.addFrom place.symbol place.lhs }
  else run

/-- As `followByDescent`, with notes. -/
def followNoted (grammar : Grammar) (first seeds : Assignment) :
    (depth : Nat) → FollowRun → Symbol → FollowRun
  | 0, run, _ => run
  | depth + 1, run, symbol =>
    if (run.state.follow.find? symbol).isSome then run
    else
      let state := run.state.add symbol (seeds.get symbol)
      let state :=
        if symbol = grammar.start then state.add symbol (.singleton .endOfInput) else state
      (grammar.occurrences.filter (·.symbol = symbol)).foldl
        (visitNoted first (grammar.followNoted first seeds depth)) ⟨state, symbol :: run.entered⟩

/-- As `followDescents`, with notes, where `depth` bounds how deep the descents may go. -/
def followRun (grammar : Grammar) (first : Assignment) (depth : Nat) (state : FollowState) :
    FollowRun :=
  grammar.nonTerminals.foldl (grammar.followNoted first state.follow depth)
    ⟨⟨.empty, state.cache⟩, []⟩

/-! #### The same sets -/

theorem visitNoted_state {ask : FollowRun → Symbol → FollowRun}
    {plain : FollowState → Symbol → FollowState}
    (asked : ∀ run symbol, (ask run symbol).state = plain run.state symbol) (run : FollowRun)
    (place : Occurrence) :
    (visitNoted first ask run place).state = visitByDescent first plain run.state place := by
  unfold visitNoted visitByDescent
  by_cases ending : place.rest.isEmpty = true
  · simp only [ending, if_true]
    split
    · rw [asked]
    · rfl
  · simp only [ending, Bool.false_eq_true, if_false]
    split
    · rw [asked]
    · rfl

theorem followNoted_state (depth : Nat) (run : FollowRun) (symbol : Symbol) :
    (grammar.followNoted first seeds depth run symbol).state =
      grammar.followByDescent first seeds depth run.state symbol := by
  induction depth generalizing run symbol with
  | zero => rfl
  | succ depth ih =>
    unfold followNoted followByDescent
    split
    · rfl
    · exact (List.foldl_hom FollowRun.state fun run place => (visitNoted_state ih run place).symm).symm

theorem followRun_state (grammar : Grammar) (first : Assignment) (depth : Nat)
    (state : FollowState) :
    (grammar.followRun first depth state).state =
      grammar.nonTerminals.foldl (grammar.followByDescent first state.follow depth)
        ⟨.empty, state.cache⟩ :=
  (List.foldl_hom FollowRun.state fun run symbol => (followNoted_state depth run symbol).symm).symm

/-! #### What is entered -/

/-- What was entered is what has a set. -/
structure Accounts (grammar : Grammar) (run : FollowRun) : Prop where
  together : grammar.Together run.entered
  holders : ∀ symbol, (run.state.follow.find? symbol).isSome ↔ symbol ∈ run.entered

/-- A later run, in which more is entered. -/
structure Onward (grammar : Grammar) (run next : FollowRun) : Prop where
  accounts : grammar.Accounts next
  kept : run.entered ⊆ next.entered

theorem Onward.trans {last : FollowRun} (early : grammar.Onward run next)
    (late : grammar.Onward next last) : grammar.Onward run last :=
  ⟨late.accounts, fun _ entered => late.kept (early.kept entered)⟩

theorem Accounts.refl (accounts : grammar.Accounts run) : grammar.Onward run run :=
  ⟨accounts, fun _ entered => entered⟩

/-- Only what was entered is added to. -/
theorem Accounts.add (accounts : grammar.Accounts run) (entered : symbol ∈ run.entered)
    {state : FollowState} {set : SymbolSet} (equal : state.follow = run.state.follow.add symbol set) :
    grammar.Onward run { run with state := state } := by
  refine ⟨⟨accounts.together, fun other => ?_⟩, fun _ entered => entered⟩
  rw [equal, Assignment.isSome_find?_add, accounts.holders]
  constructor
  · rintro (held | rfl)
    · exact held
    · exact entered
  · exact .inl

theorem Accounts.enter (accounts : grammar.Accounts run) (known : symbol ∈ grammar.nonTerminals)
    (fresh : run.state.follow.find? symbol = none) {begun : FollowState}
    (enters : grammar.Enters first seeds symbol run.state begun) :
    grammar.Onward run ⟨begun, symbol :: run.entered⟩ := by
  have absent : symbol ∉ run.entered := by
    rw [← accounts.holders, fresh]
    simp
  refine ⟨⟨accounts.together.cons absent known, fun other => ?_⟩, List.subset_cons_self _ _⟩
  rw [List.mem_cons, ← accounts.holders]
  constructor
  · exact fun held => (enters.only other held).symm
  · rintro (rfl | held)
    · exact enters.entered
    · exact enters.adds.kept other held

theorem visitNoted_onward {ask : FollowRun → Symbol → FollowRun}
    (asked : ∀ run, grammar.Accounts run → ∀ symbol ∈ grammar.nonTerminals,
      grammar.Onward run (ask run symbol))
    (accounts : grammar.Accounts run) (entered : place.symbol ∈ run.entered)
    (member : place ∈ grammar.occurrences) :
    grammar.Onward run (visitNoted first ask run place) := by
  -- the left-hand side is asked for, if at all, in a run that accounts for what it entered
  have ending (middle : FollowRun) (onward : grammar.Onward run middle) (trailing : Bool) :
      grammar.Onward run
        (if trailing && place.lhs ≠ place.symbol then
          { ask middle place.lhs with
            state := (ask middle place.lhs).state.addFrom place.symbol place.lhs }
        else middle) := by
    split
    · have descended := asked middle onward.accounts place.lhs (lhs_mem_of_occurrence member)
      have added : grammar.Onward (ask middle place.lhs)
          { ask middle place.lhs with
            state := (ask middle place.lhs).state.addFrom place.symbol place.lhs } :=
        descended.accounts.add (descended.kept (onward.kept entered)) rfl
      exact (onward.trans descended).trans added
    · exact onward
  unfold visitNoted
  by_cases bare : place.rest.isEmpty = true
  · simp only [bare, if_true]
    exact ending run accounts.refl true
  · simp only [bare, Bool.false_eq_true, if_false]
    exact ending _ (accounts.add entered rfl) _

/-- However deep a descent may go, it enters no non-terminal that was entered before. -/
theorem followNoted_onward (first seeds : Assignment) (depth : Nat) (accounts : grammar.Accounts run)
    (known : symbol ∈ grammar.nonTerminals) :
    grammar.Onward run (grammar.followNoted first seeds depth run symbol) ∧
      (0 < depth → symbol ∈ (grammar.followNoted first seeds depth run symbol).entered) := by
  induction depth generalizing run symbol with
  | zero => exact ⟨accounts.refl, fun positive => absurd positive (Nat.lt_irrefl 0)⟩
  | succ depth ih =>
    unfold followNoted
    split
    · rename_i held
      exact ⟨accounts.refl, fun _ => (accounts.holders symbol).mp held⟩
    · rename_i open?
      have fresh : run.state.follow.find? symbol = none := by simpa using open?
      have entered := accounts.enter known fresh (enters_seeded first seeds known fresh)
      -- all places are visited in runs in which the symbol is entered
      have visited (begun : FollowRun) (accounts : grammar.Accounts begun)
          (inside : symbol ∈ begun.entered) : grammar.Onward begun
            ((grammar.occurrences.filter (·.symbol = symbol)).foldl
              (visitNoted first (grammar.followNoted first seeds depth)) begun) := by
        refine List.foldlRecOn (motive := grammar.Onward begun) _ _ accounts.refl ?_
        intro next onward place member
        obtain ⟨listed, own⟩ := List.mem_filter.mp member
        have held : place.symbol ∈ next.entered := by
          rw [of_decide_eq_true own]
          exact onward.kept inside
        exact onward.trans (visitNoted_onward
          (fun run accounts other declared => (ih accounts declared).1) onward.accounts held listed)
      have later := visited _ entered.accounts (List.mem_cons_self ..)
      exact ⟨entered.trans later, fun _ => later.kept (List.mem_cons_self ..)⟩

theorem foldl_followNoted (first seeds : Assignment) (depth : Nat) {symbols : List Symbol}
    (listed : ∀ symbol ∈ symbols, symbol ∈ grammar.nonTerminals)
    (accounts : grammar.Accounts run) :
    grammar.Onward run (symbols.foldl (grammar.followNoted first seeds depth) run) ∧
      (0 < depth → symbols ⊆ (symbols.foldl (grammar.followNoted first seeds depth) run).entered) := by
  induction symbols generalizing run with
  | nil => exact ⟨accounts.refl, fun _ => List.nil_subset _⟩
  | cons symbol rest ih =>
    obtain ⟨known, others⟩ := List.forall_mem_cons.mp listed
    obtain ⟨onward, entered⟩ := followNoted_onward first seeds depth accounts known
    obtain ⟨later, all⟩ := ih others onward.accounts
    rw [List.foldl_cons]
    exact ⟨onward.trans later, fun positive =>
      List.cons_subset.mpr ⟨later.kept (entered positive), all positive⟩⟩

/-- A round for FOLLOW enters no non-terminal twice. With a depth above their number it is the
round without notes, and enters every non-terminal. -/
theorem followRun_spec (grammar : Grammar) (first : Assignment) (depth : Nat)
    (state : FollowState) :
    grammar.Together (grammar.followRun first depth state).entered ∧
      (grammar.nonTerminals.length < depth →
        (grammar.followRun first depth state).state = grammar.followDescents first state ∧
        grammar.nonTerminals ⊆ (grammar.followRun first depth state).entered) := by
  have begun : grammar.Accounts ⟨⟨.empty, state.cache⟩, []⟩ :=
    ⟨⟨List.nodup_nil, by simp⟩, by simp⟩
  obtain ⟨onward, entered⟩ := foldl_followNoted first state.follow depth
    (fun symbol listed => listed) begun
  refine ⟨onward.accounts.together, fun enough => ⟨?_, entered (by omega)⟩⟩
  rw [followRun_state, followDescents_depth first state enough]

end Grammar

end Predictive
