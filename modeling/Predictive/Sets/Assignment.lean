import Predictive.Sets.SymbolSet

/-! Assignments of symbol sets to non-terminals. What was never assigned is the empty set. -/

set_option autoImplicit false

namespace Predictive

structure Assignment where
  entries : List (Symbol × SymbolSet)
  deriving DecidableEq, Repr

namespace Assignment

def empty : Assignment := ⟨[]⟩

def find? (assignment : Assignment) (symbol : Symbol) : Option SymbolSet :=
  (assignment.entries.find? (·.1 = symbol)).map Prod.snd

def get (assignment : Assignment) (symbol : Symbol) : SymbolSet :=
  (assignment.find? symbol).getD .empty

@[simp] theorem find?_empty (symbol : Symbol) : empty.find? symbol = none := rfl

@[simp] theorem get_empty (symbol : Symbol) : empty.get symbol = .empty := rfl

/-- The entries with the elements of a set added to those of a symbol. -/
def addEntry (symbol : Symbol) (set : SymbolSet) :
    List (Symbol × SymbolSet) → List (Symbol × SymbolSet)
  | [] => [(symbol, set)]
  | (other, old) :: rest =>
    if other = symbol then (other, old.union set) :: rest
    else (other, old) :: addEntry symbol set rest

/-- Adds elements to the set of a symbol. -/
def add (assignment : Assignment) (symbol : Symbol) (set : SymbolSet) : Assignment :=
  ⟨addEntry symbol set assignment.entries⟩

theorem find?_add (assignment : Assignment) (symbol other : Symbol) (set : SymbolSet) :
    (assignment.add symbol set).find? other =
      if other = symbol then
        some (match assignment.find? symbol with
          | some old => old.union set
          | none => set)
      else assignment.find? other := by
  obtain ⟨entries⟩ := assignment
  unfold add find?
  dsimp only
  induction entries with
  | nil =>
    by_cases same : other = symbol
    · simp [addEntry, same]
    · simp [addEntry, same, Ne.symm same]
  | cons first rest ih =>
    obtain ⟨name, old⟩ := first
    by_cases found : name = symbol
    · subst found
      by_cases same : other = name
      · simp [addEntry, same]
      · simp [addEntry, same, Ne.symm same]
    · by_cases same : name = other
      · subst same
        simp [addEntry, found]
      · simp only [addEntry, if_neg found, List.find?_cons, decide_eq_false same,
          decide_eq_false found]
        exact ih

@[simp] theorem mem_get_add {assignment : Assignment} {symbol other element : Symbol}
    {set : SymbolSet} :
    element ∈ (assignment.add symbol set).get other ↔
      element ∈ assignment.get other ∨ (other = symbol ∧ element ∈ set) := by
  unfold get
  rw [find?_add]
  by_cases same : other = symbol
  · subst same
    cases assignment.find? other <;> simp
  · simp [same]

def size (assignment : Assignment) : Nat :=
  assignment.entries.foldr (fun entry total => entry.2.size + total) 0

end Assignment

end Predictive
