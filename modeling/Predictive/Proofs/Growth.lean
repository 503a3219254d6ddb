import Predictive.Sets.Assignment
import Predictive.Sets.Iteration
import Mathlib.Data.List.Nodup
import Mathlib.Data.List.Perm.Subperm
import Mathlib.Data.Set.Defs
import Mathlib.Logic.Function.Iterate

/-! Sets that only grow. A pass over some items that leaves the size of a state as it was leaves
its sets as they were, and every item is settled then; as the size is bounded, the repetition of a
pass ends in such a state. -/

set_option autoImplicit false

namespace Predictive

namespace SymbolSet

theorem mem_of_size_le {left : SymbolSet} (right : SymbolSet)
    (within : ∀ symbol ∈ left, symbol ∈ right)
    (small : right.size ≤ left.size) {symbol : Symbol} (member : symbol ∈ right) :
    symbol ∈ left :=
  ((left.nodup.subperm within).perm_of_length_le small).mem_iff.mpr member

theorem size_le_union (left right : SymbolSet) : left.size ≤ (left.union right).size :=
  (left.nodup.subperm fun _ member => mem_union.mpr (.inl member)).length_le

theorem size_le_of_subset {set : SymbolSet} {range : List Symbol}
    (within : ∀ symbol ∈ set, symbol ∈ range) : set.size ≤ range.length :=
  (set.nodup.subperm within).length_le

end SymbolSet

namespace Assignment

/-- What the sets of an assignment hold, whatever the order in which it was entered. -/
def view (assignment : Assignment) (symbol : Symbol) : Set Symbol :=
  { element | element ∈ assignment.get symbol }

theorem mem_view {assignment : Assignment} {symbol element : Symbol} :
    element ∈ assignment.view symbol ↔ element ∈ assignment.get symbol := Iff.rfl

theorem size_cons (entry : Symbol × SymbolSet) (entries : List (Symbol × SymbolSet)) :
    size ⟨entry :: entries⟩ = entry.2.size + size ⟨entries⟩ := rfl

theorem get_cons (name symbol : Symbol) (set : SymbolSet) (entries : List (Symbol × SymbolSet)) :
    get ⟨(name, set) :: entries⟩ symbol = if name = symbol then set else get ⟨entries⟩ symbol := by
  by_cases same : name = symbol
  · simp [get, find?, same]
  · simp [get, find?, same]

theorem size_le_add (assignment : Assignment) (symbol : Symbol) (set : SymbolSet) :
    assignment.size ≤ (assignment.add symbol set).size := by
  obtain ⟨entries⟩ := assignment
  unfold add
  induction entries with
  | nil => exact Nat.zero_le _
  | cons first rest ih =>
    obtain ⟨name, old⟩ := first
    unfold addEntry
    split
    · simpa only [size_cons] using Nat.add_le_add_right (old.size_le_union set) _
    · simpa only [size_cons] using Nat.add_le_add_left ih _

/-- What is added without an effect on the size was there. -/
theorem mem_get_of_size_add {assignment : Assignment} {symbol : Symbol} {set : SymbolSet}
    (same : (assignment.add symbol set).size = assignment.size) {element : Symbol}
    (member : element ∈ set) : element ∈ assignment.get symbol := by
  obtain ⟨entries⟩ := assignment
  unfold add at same
  induction entries with
  | nil =>
    -- a new entry would add the whole of its set to the size
    have empty : set.elements.length = 0 := same
    rw [List.length_eq_zero_iff] at empty
    exact absurd (SymbolSet.mem_elements.mpr member) (by simp [empty])
  | cons first rest ih =>
    obtain ⟨name, old⟩ := first
    rw [get_cons]
    unfold addEntry at same
    split at same
    · rename_i found
      simp only [size_cons] at same
      rw [if_pos found]
      apply SymbolSet.mem_of_size_le (old.union set)
      · intro other inside
        exact SymbolSet.mem_union.mpr (.inl inside)
      · omega
      · exact SymbolSet.mem_union.mpr (.inr member)
    · rename_i other
      simp only [size_cons] at same
      rw [if_neg other]
      exact ih (by dsimp only at same ⊢; omega)

theorem view_add_of_size {assignment : Assignment} {symbol : Symbol} {set : SymbolSet}
    (same : (assignment.add symbol set).size = assignment.size) :
    (assignment.add symbol set).view = assignment.view := by
  funext other
  ext element
  simp only [mem_view, mem_get_add]
  constructor
  · rintro (member | ⟨rfl, member⟩)
    · exact member
    · exact mem_get_of_size_add same member
  · exact .inl

/-- Every set belongs to one of some symbols and holds only elements of a range. -/
structure Within (keys range : List Symbol) (assignment : Assignment) : Prop where
  distinct : (assignment.entries.map Prod.fst).Nodup
  owned : ∀ entry ∈ assignment.entries, entry.1 ∈ keys
  inside : ∀ entry ∈ assignment.entries, ∀ element ∈ entry.2, element ∈ range

variable {keys range : List Symbol}

theorem Within.empty : Within keys range .empty :=
  ⟨List.nodup_nil, by simp [Assignment.empty], by simp [Assignment.empty]⟩

theorem exists_entry_of_mem_get {assignment : Assignment} {symbol element : Symbol}
    (member : element ∈ assignment.get symbol) :
    ∃ entry ∈ assignment.entries, entry.1 = symbol ∧ element ∈ entry.2 := by
  unfold Assignment.get Assignment.find? at member
  cases found : assignment.entries.find? (·.1 = symbol) with
  | none => simp [found] at member
  | some entry =>
    simp only [found, Option.map_some, Option.getD_some] at member
    exact ⟨entry, List.mem_of_find?_eq_some found, by simpa using List.find?_some found, member⟩

theorem Within.get {assignment : Assignment} (within : Within keys range assignment)
    {symbol element : Symbol} (member : element ∈ assignment.get symbol) : element ∈ range := by
  obtain ⟨entry, listed, _, inside⟩ := exists_entry_of_mem_get member
  exact within.inside entry listed element inside

theorem Within.owner {assignment : Assignment} (within : Within keys range assignment)
    {symbol element : Symbol} (member : element ∈ assignment.get symbol) : symbol ∈ keys := by
  obtain ⟨entry, listed, rfl, _⟩ := exists_entry_of_mem_get member
  exact within.owned entry listed

theorem mem_addEntry {symbol : Symbol} {set : SymbolSet} {entries : List (Symbol × SymbolSet)}
    {entry : Symbol × SymbolSet} (member : entry ∈ addEntry symbol set entries) :
    entry ∈ entries ∨ entry = (symbol, set) ∨
      ∃ old, (symbol, old) ∈ entries ∧ entry = (symbol, old.union set) := by
  induction entries with
  | nil => exact .inr (.inl (by simpa [addEntry] using member))
  | cons first rest ih =>
    obtain ⟨name, old⟩ := first
    unfold addEntry at member
    split at member
    · rename_i found
      subst found
      rcases List.mem_cons.mp member with rfl | member
      · exact .inr (.inr ⟨old, by simp, rfl⟩)
      · exact .inl (List.mem_cons_of_mem _ member)
    · rcases List.mem_cons.mp member with rfl | member
      · exact .inl (by simp)
      · rcases ih member with kept | new | ⟨old, inside, same⟩
        · exact .inl (List.mem_cons_of_mem _ kept)
        · exact .inr (.inl new)
        · exact .inr (.inr ⟨old, List.mem_cons_of_mem _ inside, same⟩)

theorem nodup_addEntry {symbol : Symbol} {set : SymbolSet}
    {entries : List (Symbol × SymbolSet)} (distinct : (entries.map Prod.fst).Nodup) :
    ((addEntry symbol set entries).map Prod.fst).Nodup := by
  induction entries with
  | nil => simp [addEntry]
  | cons first rest ih =>
    obtain ⟨name, old⟩ := first
    unfold addEntry
    simp only [List.map_cons, List.nodup_cons] at distinct
    split
    · simpa only [List.map_cons, List.nodup_cons] using distinct
    · rename_i other
      simp only [List.map_cons, List.nodup_cons]
      refine ⟨?_, ih distinct.2⟩
      intro repeated
      obtain ⟨entry, member, same⟩ := List.mem_map.mp repeated
      rcases mem_addEntry member with kept | new | ⟨old, inside, changed⟩
      · exact distinct.1 (List.mem_map.mpr ⟨entry, kept, same⟩)
      · exact other (by rw [← same, new])
      · exact other (by rw [← same, changed])

theorem Within.add {assignment : Assignment} (within : Within keys range assignment)
    {symbol : Symbol} {set : SymbolSet} (key : symbol ∈ keys)
    (elements : ∀ element ∈ set, element ∈ range) :
    Within keys range (assignment.add symbol set) where
  distinct := nodup_addEntry within.distinct
  owned := by
    intro entry member
    rcases mem_addEntry member with kept | rfl | ⟨old, _, rfl⟩
    · exact within.owned entry kept
    · exact key
    · exact key
  inside := by
    intro entry member element inside
    rcases mem_addEntry member with kept | rfl | ⟨old, kept, rfl⟩
    · exact within.inside entry kept element inside
    · exact elements element inside
    · rcases SymbolSet.mem_union.mp inside with before | added
      · exact within.inside _ kept element before
      · exact elements element added

theorem size_le_entries {entries : List (Symbol × SymbolSet)}
    (inside : ∀ entry ∈ entries, ∀ element ∈ entry.2, element ∈ range) :
    size ⟨entries⟩ ≤ entries.length * range.length := by
  induction entries with
  | nil => exact Nat.zero_le _
  | cons first rest ih =>
    have head := SymbolSet.size_le_of_subset (inside first (by simp))
    have tail := ih fun entry member => inside entry (List.mem_cons_of_mem _ member)
    rw [size_cons, List.length_cons, Nat.succ_mul]
    omega

theorem Within.size_le {assignment : Assignment} (within : Within keys range assignment) :
    assignment.size ≤ keys.length * range.length := by
  -- the owners are distinct, so there are no more entries than keys
  have owners : assignment.entries.length ≤ keys.length := by
    have owned : assignment.entries.map Prod.fst ⊆ keys := by
      intro symbol member
      obtain ⟨entry, inside, rfl⟩ := List.mem_map.mp member
      exact within.owned entry inside
    simpa using (within.distinct.subperm owned).length_le
  exact Nat.le_trans (size_le_entries within.inside) (Nat.mul_le_mul_right _ owners)

/-! ### Two assignments -/

/-- Every set lies within that of the other assignment. -/
def Below (left right : Assignment) : Prop :=
  ∀ symbol, ∀ element ∈ left.get symbol, element ∈ right.get symbol

/-- What has a set in the one has a set in the other. -/
def Kept (early late : Assignment) : Prop :=
  ∀ symbol, (early.find? symbol).isSome → (late.find? symbol).isSome

/-- The same symbols have sets, and these are the same. -/
def Equals (left right : Assignment) : Prop :=
  ∀ symbol, ((left.find? symbol).isSome ↔ (right.find? symbol).isSome) ∧
    ∀ element, element ∈ left.get symbol ↔ element ∈ right.get symbol

theorem Below.refl (assignment : Assignment) : assignment.Below assignment :=
  fun _ _ member => member

theorem Below.trans {left middle right : Assignment} (first : left.Below middle)
    (second : middle.Below right) : left.Below right :=
  fun symbol element member => second symbol element (first symbol element member)

theorem Kept.refl (assignment : Assignment) : assignment.Kept assignment :=
  fun _ found => found

theorem Kept.trans {early middle late : Assignment} (first : early.Kept middle)
    (second : middle.Kept late) : early.Kept late :=
  fun symbol found => second symbol (first symbol found)

theorem below_add (assignment : Assignment) (symbol : Symbol) (set : SymbolSet) :
    assignment.Below (assignment.add symbol set) :=
  fun _ _ member => mem_get_add.mpr (.inl member)

theorem kept_add (assignment : Assignment) (symbol : Symbol) (set : SymbolSet) :
    assignment.Kept (assignment.add symbol set) := by
  intro other found
  rw [find?_add]
  split
  · rfl
  · exact found

theorem isSome_find?_add {assignment : Assignment} {symbol other : Symbol} {set : SymbolSet} :
    ((assignment.add symbol set).find? other).isSome ↔
      (assignment.find? other).isSome ∨ other = symbol := by
  rw [find?_add]
  by_cases same : other = symbol
  · simp [same]
  · simp [same]

/-- The elements of all sets, each with the symbol that its set belongs to. -/
def pairs (assignment : Assignment) : List (Symbol × Symbol) :=
  assignment.entries.flatMap fun entry => entry.2.elements.map (entry.1, ·)

theorem length_pairs (assignment : Assignment) : assignment.pairs.length = assignment.size := by
  obtain ⟨entries⟩ := assignment
  unfold pairs
  induction entries with
  | nil => rfl
  | cons entry rest ih =>
    rw [size_cons, ← ih, List.flatMap_cons, List.length_append, List.length_map]
    rfl

theorem owner_of_mem_pairs {assignment : Assignment} {symbol element : Symbol}
    (member : (symbol, element) ∈ assignment.pairs) :
    symbol ∈ assignment.entries.map Prod.fst := by
  obtain ⟨entry, listed, inside⟩ := List.mem_flatMap.mp member
  obtain ⟨_, _, same⟩ := List.mem_map.mp inside
  exact List.mem_map.mpr ⟨entry, listed, congrArg Prod.fst same⟩

theorem mem_pairs {assignment : Assignment}
    (distinct : (assignment.entries.map Prod.fst).Nodup) {symbol element : Symbol} :
    (symbol, element) ∈ assignment.pairs ↔ element ∈ assignment.get symbol := by
  obtain ⟨entries⟩ := assignment
  induction entries with
  | nil => simp [pairs, get, find?]
  | cons first rest ih =>
    obtain ⟨name, set⟩ := first
    obtain ⟨fresh, others⟩ := List.nodup_cons.mp distinct
    have split : (symbol, element) ∈ pairs ⟨(name, set) :: rest⟩ ↔
        (name = symbol ∧ element ∈ set) ∨ (symbol, element) ∈ pairs ⟨rest⟩ := by
      simp [pairs, SymbolSet.mem_elements, and_comm]
    rw [split, get_cons]
    by_cases same : name = symbol
    · subst same
      have once : (name, element) ∉ pairs ⟨rest⟩ := fun later => fresh (owner_of_mem_pairs later)
      simp [once]
    · simp [same, ih others]

theorem nodup_pairs {assignment : Assignment}
    (distinct : (assignment.entries.map Prod.fst).Nodup) : assignment.pairs.Nodup := by
  unfold pairs
  rw [List.nodup_flatMap]
  constructor
  · intro entry _
    exact entry.2.nodup.map fun _ _ same => (Prod.mk.inj same).2
  · refine (List.pairwise_map.mp distinct).imp ?_
    intro left right different pair inLeft inRight
    obtain ⟨_, _, rfl⟩ := List.mem_map.mp inLeft
    obtain ⟨_, _, same⟩ := List.mem_map.mp inRight
    exact different (Prod.mk.inj same).1.symm

section
variable {left right : Assignment} (leftDistinct : (left.entries.map Prod.fst).Nodup)
  (rightDistinct : (right.entries.map Prod.fst).Nodup)
include leftDistinct rightDistinct

theorem Below.pairs_subperm (below : left.Below right) : left.pairs.Subperm right.pairs := by
  refine (nodup_pairs leftDistinct).subperm ?_
  rintro ⟨symbol, element⟩ member
  rw [mem_pairs leftDistinct] at member
  rw [mem_pairs rightDistinct]
  exact below symbol element member

theorem Below.size_le (below : left.Below right) : left.size ≤ right.size := by
  rw [← length_pairs, ← length_pairs]
  exact (below.pairs_subperm leftDistinct rightDistinct).length_le

/-- Of two assignments of one size, none lies below the other unless they agree. -/
theorem Below.antisymm_of_size (below : left.Below right) (same : right.size = left.size) :
    right.Below left := by
  rw [← length_pairs, ← length_pairs] at same
  have perm := (below.pairs_subperm leftDistinct rightDistinct).perm_of_length_le (by omega)
  intro symbol element member
  rw [← mem_pairs rightDistinct, ← perm.mem_iff, mem_pairs leftDistinct] at member
  exact member

end

end Assignment

/-- The repetition of a pass over states of bounded size ends with a pass that adds nothing, if it
may take one pass more than the size can grow. -/
theorem untilStable_ends {State : Type} {pass : State → State} {size : State → Nat} {bound : Nat}
    (holds : State → Prop) (kept : ∀ state, holds state → holds (pass state))
    (grows : ∀ state, holds state → size state ≤ size (pass state))
    (bounded : ∀ state, holds state → size state ≤ bound) (limit : Nat) (state : State)
    (holding : holds state) (enough : bound < size state + limit) :
    ∃ last, holds last ∧ size (pass last) = size last ∧
      untilStable pass size limit state = pass last := by
  induction limit generalizing state with
  | zero =>
    -- the size cannot grow beyond the bound, so the limit is never used up
    exact absurd (bounded state holding) (by omega)
  | succ limit ih =>
    unfold untilStable
    dsimp only
    split
    · rename_i same
      exact ⟨state, holding, same, rfl⟩
    · rename_i changed
      have larger := grows state holding
      exact ih _ (kept state holding) (by omega)

section
variable {State : Type} {pass : State → State} {stops other : State → State → Prop}

/-- A pass is repeated until a test of the states before and after it says to stop. -/
inductive LoopsTo (pass : State → State) (stops : State → State → Prop) : State → State → Prop where
  | stop {state : State} (settled : stops state (pass state)) : LoopsTo pass stops state (pass state)
  | again {state last : State} (changed : ¬ stops state (pass state))
      (later : LoopsTo pass stops (pass state) last) : LoopsTo pass stops state last

/-- A loop ends with a pass after which the test says to stop. -/
theorem LoopsTo.ends {state last : State} (loops : LoopsTo pass stops state last)
    (holds : State → Prop) (kept : ∀ state, holds state → holds (pass state))
    (initial : holds state) :
    ∃ before, holds before ∧ stops before (pass before) ∧ last = pass before := by
  induction loops with
  | stop settled => exact ⟨_, initial, settled, rfl⟩
  | again _ _ ih => exact ih (kept _ initial)

/-- Two tests that agree on the way make the same loop. -/
theorem LoopsTo.congr {state last : State} (loops : LoopsTo pass stops state last)
    (holds : State → Prop) (kept : ∀ state, holds state → holds (pass state))
    (same : ∀ state, holds state → (stops state (pass state) ↔ other state (pass state)))
    (initial : holds state) : LoopsTo pass other state last := by
  induction loops with
  | stop settled => exact .stop ((same _ initial).mp settled)
  | again changed _ ih =>
    exact .again (fun settled => changed ((same _ initial).mpr settled)) (ih (kept _ initial))

/-- The limit of a repetition does not matter if some pass below it adds nothing. -/
theorem untilStable_loopsTo {size : State → Nat} {passes limit : Nat} {state : State}
    (early : passes < limit)
    (settled : size (pass^[passes + 1] state) = size (pass^[passes] state)) :
    LoopsTo pass (fun early late => size late = size early) state
      (untilStable pass size limit state) := by
  induction limit generalizing passes state with
  | zero => exact absurd early (Nat.not_lt_zero _)
  | succ limit ih =>
    unfold untilStable
    dsimp only
    split
    · rename_i same
      exact .stop same
    · rename_i changed
      refine .again changed ?_
      cases passes with
      | zero => exact absurd settled changed
      | succ passes => exact ih (Nat.lt_of_succ_lt_succ early) settled

end

/-- A state that is folded over items and only grows, up to a bound: where an item does not change
the size, it does not change the view, and it is settled. -/
structure Inflates {State Item View : Type} (step : State → Item → State) (size : State → Nat)
    (view : State → View) (holds : State → Prop) (settled : View → Item → Prop)
    (items : List Item) (bound : Nat) : Prop where
  kept : ∀ state, holds state → ∀ item ∈ items, holds (step state item)
  grows : ∀ state item, size state ≤ size (step state item)
  still : ∀ state item, holds state → size (step state item) = size state →
    view (step state item) = view state ∧ settled (view state) item
  bounded : ∀ state, holds state → size state ≤ bound

namespace Inflates

variable {State Item View : Type} {step : State → Item → State} {size : State → Nat}
  {view : State → View} {holds : State → Prop} {settled : View → Item → Prop}
  {items : List Item} {bound : Nat}

theorem tail {item : Item} (inflates : Inflates step size view holds settled (item :: items) bound) :
    Inflates step size view holds settled items bound :=
  { inflates with
    kept := fun state holding other member =>
      inflates.kept state holding other (List.mem_cons_of_mem _ member) }

theorem size_le_foldl (inflates : Inflates step size view holds settled items bound)
    (state : State) : size state ≤ size (items.foldl step state) := by
  induction items generalizing state with
  | nil => exact Nat.le_refl _
  | cons item rest ih => exact Nat.le_trans (inflates.grows state item) (ih inflates.tail _)

theorem holds_foldl (inflates : Inflates step size view holds settled items bound) {state : State}
    (holding : holds state) : holds (items.foldl step state) := by
  induction items generalizing state with
  | nil => exact holding
  | cons item rest ih => exact ih inflates.tail (inflates.kept state holding item (by simp))

theorem settled_of_size (inflates : Inflates step size view holds settled items bound)
    {state : State} (holding : holds state)
    (same : size (items.foldl step state) = size state) :
    view (items.foldl step state) = view state ∧ ∀ item ∈ items, settled (view state) item := by
  induction items generalizing state with
  | nil => exact ⟨rfl, by simp⟩
  | cons item rest ih =>
    rw [List.foldl_cons] at same ⊢
    -- no step shrinks the state: a pass that keeps its size keeps it at every item
    have first := inflates.grows state item
    have later := inflates.tail.size_le_foldl (step state item)
    obtain ⟨unchanged, done⟩ := inflates.still state item holding (by omega)
    obtain ⟨passed, others⟩ :=
      ih inflates.tail (inflates.kept state holding item (by simp)) (by omega)
    rw [unchanged] at passed others
    refine ⟨passed, ?_⟩
    intro other member
    rcases List.mem_cons.mp member with rfl | member
    · exact done
    · exact others other member

/-- The repetition of a pass ends where all items are settled, if it may take one pass more than
the size can grow. -/
theorem settled_untilStable (inflates : Inflates step size view holds settled items bound)
    (limit : Nat) (state : State) (holding : holds state) (enough : bound < size state + limit) :
    ∀ item ∈ items, settled (view (untilStable (items.foldl step) size limit state)) item := by
  obtain ⟨last, held, same, equal⟩ := untilStable_ends holds
    (fun _ holding => inflates.holds_foldl holding)
    (fun state _ => inflates.size_le_foldl state) inflates.bounded limit state holding enough
  obtain ⟨unchanged, done⟩ := inflates.settled_of_size held same
  rw [equal, unchanged]
  exact done

theorem holds_untilStable (inflates : Inflates step size view holds settled items bound)
    (limit : Nat) {state : State} (holding : holds state) :
    holds (untilStable (items.foldl step) size limit state) :=
  untilStable_invariant holds (fun _ holding => inflates.holds_foldl holding) limit state holding

end Inflates

end Predictive
