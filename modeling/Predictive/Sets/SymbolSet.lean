import Predictive.Grammar.Symbol

/-! Finite sets of symbols, held as lists without repetition. -/

set_option autoImplicit false

namespace Predictive

structure SymbolSet where
  elements : List Symbol
  nodup : elements.Nodup
  deriving DecidableEq, Repr

namespace SymbolSet

instance : Membership Symbol SymbolSet where
  mem set symbol := symbol ∈ set.elements

instance (symbol : Symbol) (set : SymbolSet) : Decidable (symbol ∈ set) :=
  inferInstanceAs (Decidable (symbol ∈ set.elements))

theorem mem_elements {symbol : Symbol} {set : SymbolSet} :
    symbol ∈ set.elements ↔ symbol ∈ set := Iff.rfl

def empty : SymbolSet := ⟨[], List.nodup_nil⟩

def singleton (symbol : Symbol) : SymbolSet := ⟨[symbol], List.pairwise_singleton _ _⟩

@[simp] theorem not_mem_empty (symbol : Symbol) : symbol ∉ empty := List.not_mem_nil

@[simp] theorem mem_singleton {symbol other : Symbol} : symbol ∈ singleton other ↔ symbol = other :=
  List.mem_singleton

def size (set : SymbolSet) : Nat := set.elements.length

def insert (symbol : Symbol) (set : SymbolSet) : SymbolSet :=
  if found : symbol ∈ set.elements then set
  else ⟨symbol :: set.elements, List.nodup_cons.mpr ⟨found, set.nodup⟩⟩

@[simp] theorem mem_insert {symbol other : Symbol} {set : SymbolSet} :
    other ∈ set.insert symbol ↔ other = symbol ∨ other ∈ set := by
  unfold insert
  split
  · rename_i found
    constructor
    · exact .inr
    · rintro (same | member)
      · exact same ▸ found
      · exact member
  · exact List.mem_cons

/-- The first set with the elements of the second. -/
def union (left right : SymbolSet) : SymbolSet :=
  right.elements.foldl (fun set symbol => set.insert symbol) left

theorem mem_foldl_insert {symbol : Symbol} (symbols : List Symbol) (set : SymbolSet) :
    symbol ∈ symbols.foldl (fun set symbol => set.insert symbol) set ↔
      symbol ∈ set ∨ symbol ∈ symbols := by
  induction symbols generalizing set with
  | nil => simp
  | cons first rest ih =>
    simp only [List.foldl_cons, ih, mem_insert, List.mem_cons]
    constructor
    · rintro ((same | member) | later)
      · exact .inr (.inl same)
      · exact .inl member
      · exact .inr (.inr later)
    · rintro (member | same | later)
      · exact .inl (.inr member)
      · exact .inl (.inl same)
      · exact .inr later

@[simp] theorem mem_union {symbol : Symbol} {left right : SymbolSet} :
    symbol ∈ left.union right ↔ symbol ∈ left ∨ symbol ∈ right :=
  mem_foldl_insert _ _

def without (symbol : Symbol) (set : SymbolSet) : SymbolSet :=
  ⟨set.elements.filter (· ≠ symbol), set.nodup.sublist List.filter_sublist⟩

@[simp] theorem mem_without {symbol other : Symbol} {set : SymbolSet} :
    other ∈ set.without symbol ↔ other ∈ set ∧ other ≠ symbol := by
  change other ∈ set.elements.filter _ ↔ other ∈ set.elements ∧ _
  simp

def ofList (symbols : List Symbol) : SymbolSet :=
  symbols.foldl (fun set symbol => set.insert symbol) empty

@[simp] theorem mem_ofList {symbol : Symbol} {symbols : List Symbol} :
    symbol ∈ ofList symbols ↔ symbol ∈ symbols := by
  simp [ofList, mem_foldl_insert]

end SymbolSet

end Predictive
