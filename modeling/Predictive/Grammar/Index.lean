import Predictive.Grammar.Basic

/-! The index of a grammar: its productions by their identities, by their left-hand sides and by the
symbols on their right, its symbols by their names, and the order of its symbols. It is filled in two
passes over the productions, and whatever is wrong with them is met on the way. -/

set_option autoImplicit false

namespace Predictive

section
variable {Key Value : Type} [DecidableEq Key]

/-- One more value under a key, behind those that are filed there; a new key comes last. -/
def file (key : Key) (value : Value) : List (Key × List Value) → List (Key × List Value)
  | [] => [(key, [value])]
  | (known, values) :: rest =>
    if known = key then (known, values ++ [value]) :: rest
    else (known, values) :: file key value rest

/-- The values under a key, in the order in which they were filed. -/
def filed (files : List (Key × List Value)) (key : Key) : List Value :=
  (files.lookup key).getD []

theorem lookup_file (files : List (Key × List Value)) (key other : Key) (value : Value) :
    (file key value files).lookup other =
      if other = key then some (filed files key ++ [value]) else files.lookup other := by
  unfold filed
  induction files with
  | nil =>
    by_cases same : other = key
    · simp [file, same]
    · simp [file, same, List.lookup_cons, beq_eq_false_iff_ne.mpr same]
  | cons entry rest ih =>
    obtain ⟨known, values⟩ := entry
    unfold file
    by_cases here : known = key
    · subst here
      by_cases same : other = known
      · simp [same]
      · simp [same, List.lookup_cons, beq_eq_false_iff_ne.mpr same]
    · rw [if_neg here, List.lookup_cons, ih]
      by_cases first : other = known
      · subst first
        simp [here]
      · rw [List.lookup_cons, List.lookup_cons, beq_eq_false_iff_ne.mpr first,
          beq_eq_false_iff_ne.mpr (Ne.symm here)]

theorem filed_file (files : List (Key × List Value)) (key other : Key) (value : Value) :
    filed (file key value files) other =
      if other = key then filed files key ++ [value] else filed files other := by
  rw [filed, lookup_file]
  split <;> rfl

end

/-- What is known of the left-hand sides. -/
structure LeftIndex where
  byId : List (Int × Production)
  byLhs : List (Symbol × List Production)
  nonTerminals : List Symbol

namespace LeftIndex

def empty : LeftIndex := ⟨[], [], []⟩

def hasProductions (index : LeftIndex) (symbol : Symbol) : Bool :=
  (index.byLhs.lookup symbol).isSome

def add (index : LeftIndex) (production : Production) : LeftIndex where
  byId := index.byId ++ [(production.id, production)]
  byLhs := file production.lhs production index.byLhs
  nonTerminals :=
    if index.hasProductions production.lhs then index.nonTerminals
    else index.nonTerminals ++ [production.lhs]

def enter (index : LeftIndex) (production : Production) : Except GrammarError LeftIndex :=
  if !production.lhs.isNonterminal then .error (.lhsNotNonterminal production.lhs)
  else if (index.byId.lookup production.id).isSome then .error (.duplicateId production.id)
  else .ok (index.add production)

end LeftIndex

/-- What is known of the symbols on the right. -/
structure RightIndex where
  containing : List (Symbol × List Production)
  terminals : List Symbol

namespace RightIndex

def empty : RightIndex := ⟨[], []⟩

end RightIndex

/-- The index in the middle of a right-hand side, of which some symbols were seen. -/
structure RightScan where
  index : RightIndex
  seen : List Symbol

namespace RightScan

/-- A production is filed once under each of its symbols, however often it mentions them. -/
def add (production : Production) (scan : RightScan) (symbol : Symbol) : RightScan where
  index :=
    { containing :=
        if symbol ∈ scan.seen then scan.index.containing
        else file symbol production scan.index.containing
      terminals :=
        if symbol.isTerminal && symbol ∉ scan.index.terminals then scan.index.terminals ++ [symbol]
        else scan.index.terminals }
  seen := if symbol ∈ scan.seen then scan.seen else scan.seen ++ [symbol]

def enter (left : LeftIndex) (production : Production) (scan : RightScan) (symbol : Symbol) :
    Except GrammarError RightScan :=
  if symbol = .epsilon then .ok scan
  else if symbol.kind = .endOfInput then .error (.reservedOnRight symbol production)
  else if symbol.isNonterminal && !left.hasProductions symbol then
    .error (.undefinedOnRight symbol production)
  else .ok (scan.add production symbol)

end RightScan

def RightIndex.enter (left : LeftIndex) (index : RightIndex) (production : Production) :
    Except GrammarError RightIndex := do
  let scan ← production.rhs.foldlM (RightScan.enter left production) ⟨index, []⟩
  .ok scan.index

/-- One more symbol under its name, which must be new. -/
def enterName (names : List (String × Symbol)) (symbol : Symbol) :
    Except GrammarError (List (String × Symbol)) :=
  if (names.lookup symbol.name).isSome then .error (.terminalAndNonterminal symbol.name)
  else .ok (names ++ [(symbol.name, symbol)])

structure GrammarIndex where
  left : LeftIndex
  right : RightIndex
  names : List (String × Symbol)
  ranks : List (Symbol × Nat)

namespace GrammarIndex

def ofProductions (productions : List Production) (start : Symbol) :
    Except GrammarError GrammarIndex :=
  if productions.isEmpty then .error .noProductions
  else do
    let left ← productions.foldlM LeftIndex.enter .empty
    let right ← productions.foldlM (RightIndex.enter left) .empty
    if left.hasProductions start then
      let symbols := left.nonTerminals ++ right.terminals
      let names ← symbols.foldlM enterName []
      .ok ⟨left, right, names, (symbols ++ [Symbol.endOfInput]).zipIdx⟩
    else .error (.startWithoutProductions start.name)

variable (index : GrammarIndex)

def productionsOf (symbol : Symbol) : List Production :=
  filed index.left.byLhs symbol

def productionsContaining (symbol : Symbol) : List Production :=
  filed index.right.containing symbol

def production? (id : Int) : Option Production :=
  index.left.byId.lookup id

def find? (name : String) : Option Symbol :=
  if name = Symbol.epsilon.name then some .epsilon
  else if name = Symbol.endOfInput.name then some .endOfInput
  else index.names.lookup name

/-- The place of a symbol in the order; all others share the place behind the last. -/
def rank (symbol : Symbol) : Nat :=
  (index.ranks.lookup symbol).getD index.ranks.length

end GrammarIndex

end Predictive
