import Predictive.Parsing.Result
import Predictive.Table.Basic

/-! Configurations of the predictive automaton, and what it does in each of them. The automaton
simulates a leftmost derivation: its stack holds what is still to be derived. An error never stops
it: the top of the stack is skipped instead. -/

set_option autoImplicit false

namespace Predictive

/-- The symbols that were consumed, latest first; the stack from its top; and the rest of the
input, which ends with the end of input. An expansion is noted with the height at which the stack
began to hold its right-hand side, from then on until that is popped or input is consumed. -/
structure Configuration where
  consumed : List Symbol
  stack : List Symbol
  remaining : List Symbol
  expansions : List (Symbol × Nat)
  deriving DecidableEq, Repr

/-- What the top of the stack and the lookahead ask for. -/
inductive Move where
  | accept
  | dropEpsilon
  | expand (production : Production)
  | consume
  | skip
  deriving DecidableEq, Repr

/-- The move of the automaton for the top of the stack, what is below it, and the lookahead. -/
def Move.choose (table : ParseTable) (top : Symbol) (below : List Symbol) (lookahead : Symbol) :
    Except Error Move :=
  if below.isEmpty && top = .endOfInput && lookahead = .endOfInput then .ok .accept
  else if top = .epsilon then .ok .dropEpsilon
  else if top.isNonterminal then
    (table.productionAt top lookahead).map fun
      | some production => .expand production
      | none => .skip
  else if top = lookahead then .ok .consume
  else .ok .skip

namespace Configuration

def initial (start : Symbol) (input : List Symbol) : Configuration :=
  ⟨[], [start, .endOfInput], input ++ [.endOfInput], []⟩

def lookahead (configuration : Configuration) : Symbol :=
  configuration.remaining.headD .endOfInput

def position (configuration : Configuration) : Nat :=
  configuration.consumed.length

/-- Whether a symbol was expanded, and what it was expanded to is still on the stack with no input
consumed since. To expand it again would repeat the same forever. -/
def isOpen (configuration : Configuration) (symbol : Symbol) : Bool :=
  configuration.expansions.any (·.1 = symbol)

/-- Without the top of the stack and the expansions that are gone with it. -/
def pop (configuration : Configuration) : Configuration :=
  let stack := configuration.stack.tail
  { configuration with
    stack := stack
    expansions := configuration.expansions.filter (·.2 ≤ stack.length) }

/-- The top of the stack replaced by the right-hand side of a production. -/
def expand (configuration : Configuration) (top : Symbol) (production : Production) :
    Configuration :=
  let popped := configuration.pop
  { popped with
    stack := production.rhs ++ popped.stack
    expansions := (top, popped.stack.length + 1) :: popped.expansions }

/-- The top of the stack and the lookahead consumed. -/
def consume (configuration : Configuration) : Configuration :=
  { configuration.pop with
    consumed := configuration.lookahead :: configuration.consumed
    remaining := configuration.remaining.tail
    expansions := [] }

section
variable (configuration : Configuration) (top : Symbol) (production : Production)

@[simp] theorem stack_pop : configuration.pop.stack = configuration.stack.tail := rfl

@[simp] theorem consumed_pop : configuration.pop.consumed = configuration.consumed := rfl

@[simp] theorem remaining_pop : configuration.pop.remaining = configuration.remaining := rfl

@[simp] theorem lookahead_pop : configuration.pop.lookahead = configuration.lookahead := rfl

@[simp] theorem stack_expand :
    (configuration.expand top production).stack = production.rhs ++ configuration.stack.tail := rfl

@[simp] theorem consumed_expand :
    (configuration.expand top production).consumed = configuration.consumed := rfl

@[simp] theorem remaining_expand :
    (configuration.expand top production).remaining = configuration.remaining := rfl

@[simp] theorem lookahead_expand :
    (configuration.expand top production).lookahead = configuration.lookahead := rfl

@[simp] theorem stack_consume : configuration.consume.stack = configuration.stack.tail := rfl

@[simp] theorem consumed_consume :
    configuration.consume.consumed = configuration.lookahead :: configuration.consumed := rfl

@[simp] theorem remaining_consume :
    configuration.consume.remaining = configuration.remaining.tail := rfl

@[simp] theorem expansions_consume : configuration.consume.expansions = [] := rfl

end

end Configuration

/-- What the automaton could have gone on with in place of an error. -/
def ParseTable.alternatives (table : ParseTable) (top : Symbol) : List Symbol :=
  if top.isNonterminal then table.expectedAt top else [top]

def mismatchMessage (top lookahead : Symbol) (expected : List Symbol) : String :=
  if top.isNonterminal then
    "Unexpected symbol '" ++ lookahead.name ++ "' while expanding '" ++ top.name ++
      "'. Expected one of: " ++ quotedNames expected
  else if top = .endOfInput then
    "Unexpected symbol '" ++ lookahead.name ++ "' after the end of the derivation"
  else "Expected '" ++ top.name ++ "', got '" ++ lookahead.name ++ "'"

end Predictive
