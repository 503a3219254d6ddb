import Predictive.Grammar.Basic

/-! Grammars from rules between names. The rules alone decide the kinds: a name with a rule is a
non-terminal, and every other name is a terminal unless the caller's wishes say otherwise. -/

set_option autoImplicit false

namespace Predictive

structure Rule where
  lhs : String
  rhs : List String
  deriving DecidableEq, Repr

/-- What a caller may demand of names that have no rule. -/
structure NamePolicy where
  /-- The only names that may be terminals. -/
  declared : Option (List String) := none
  /-- Which names must have rules; not asked where terminals are declared. -/
  mustHaveRules : String → Bool := fun _ => false

namespace Rule

/-- The first reserved name, in the order of characters, that a left-hand side uses. -/
def reservedLhs? (lhsNames : List String) : Option String :=
  [Symbol.endOfInput.name, Symbol.epsilon.name].find? lhsNames.contains

/-- The declared terminals that have rules, sorted and without repetition. -/
def declaredWithRules (declared lhsNames : List String) : List String :=
  ((declared.filter lhsNames.contains).eraseDups).mergeSort (· ≤ ·)

/-- The symbol that a name in a right-hand side of `lhs` stands for. -/
def classify (policy : NamePolicy) (lhsNames : List String) (lhs name : String) :
    Except GrammarError Symbol :=
  if name = Symbol.epsilon.name then .ok .epsilon
  else if name = Symbol.endOfInput.name then .error (.reservedInRule name lhs)
  else if lhsNames.contains name then .ok (.nonterminal name)
  else match policy.declared with
    | some declared =>
      if declared.contains name then .ok (.terminal name) else .error (.undefinedSymbol name lhs)
    | none =>
      if policy.mustHaveRules name then .error (.undefinedNonterminal name lhs)
      else .ok (.terminal name)

/-- The productions of some rules, numbered from `id`. -/
def productions (policy : NamePolicy) (lhsNames : List String) :
    (id : Int) → List Rule → Except GrammarError (List Production)
  | _, [] => .ok []
  | id, rule :: rest => do
    let rhs ← rule.rhs.mapM (classify policy lhsNames rule.lhs)
    let others ← productions policy lhsNames (id + 1) rest
    return ⟨id, .nonterminal rule.lhs, normalizeRhs rhs⟩ :: others

end Rule

/-- The grammar of some rules; it starts with the first left-hand side if no start is given. -/
def Grammar.ofRules (rules : List Rule) (start : Option String) (policy : NamePolicy) :
    Except GrammarError Grammar :=
  match rules with
  | [] => .error .noProductions
  | first :: _ =>
    let lhsNames := rules.map Rule.lhs
    match Rule.reservedLhs? lhsNames with
    | some name => .error (.reservedOnLeft name)
    | none =>
      match Rule.declaredWithRules (policy.declared.getD []) lhsNames with
      | name :: names => .error (.declaredWithProductions (name :: names))
      | [] => do
        let productions ← Rule.productions policy lhsNames 1 rules
        let start := start.getD first.lhs
        if lhsNames.contains start then ofProductions productions (.nonterminal start)
        else .error (.startWithoutProductions start)

end Predictive
