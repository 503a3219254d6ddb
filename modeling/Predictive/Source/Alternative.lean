import Predictive.Source.Statement
import Predictive.Grammar.Rules

/-! Alternatives of a statement. An alternative is a row of words; a word between quotes is taken
literally, and every other one may be a spelling of the empty string. -/

set_option autoImplicit false

namespace Predictive

/-- How grammar texts are read, and how the sets of the grammar are computed. -/
structure GrammarOptions where
  /-- Whether an alternative without blanks and quotes is a row of one-character names. -/
  compactSymbols : Bool := false
  /-- Whether names with an uppercase initial must have productions. -/
  strictNonterminals : Bool := true
  /-- The spellings of the empty string. -/
  epsilonAliases : List String := ["ε", "ϵ", "eps", "epsilon"]
  /-- The name of a strategy; it is looked up where sets are computed. -/
  strategy : String := "fixed_point"
  deriving DecidableEq, Repr

/-- Options under a known strategy. -/
def GrammarOptions.checked (options : GrammarOptions) : Except Error GrammarOptions :=
  if strategyNames.contains options.strategy then .ok options
  else .error (.unknownStrategy options.strategy)

namespace Source

open Text

/-- A quoted word is what stands between the quotes. -/
inductive Word where
  | quoted (text : List Char)
  | bare (text : List Char)
  deriving DecidableEq, Repr

/-- The text before and after the first occurrence of a mark. -/
def splitAtMark? (mark : Char) : List Char → Option (List Char × List Char)
  | [] => none
  | c :: rest =>
    if c = mark then some ([], rest)
    else (splitAtMark? mark rest).map fun (before, after) => (c :: before, after)

theorem eq_of_splitAtMark {mark : Char} {text before after : List Char}
    (found : splitAtMark? mark text = some (before, after)) :
    text = before ++ mark :: after := by
  induction text generalizing before with
  | nil => simp [splitAtMark?] at found
  | cons c rest ih =>
    unfold splitAtMark? at found
    split at found
    · rename_i same
      cases found
      rw [same]
      rfl
    · obtain ⟨⟨front, back⟩, inner, equal⟩ := Option.map_eq_some_iff.mp found
      obtain ⟨rfl, rfl⟩ := Prod.mk.inj equal
      rw [ih inner]
      rfl

def isQuote (c : Char) : Bool :=
  c == '\'' || c == '"'

def isNotBlank (c : Char) : Bool :=
  !isBlank c

/-- The first word of a text that does not start with a blank, and what follows it. A quote that
is never closed is an ordinary character. -/
def firstWord (first : Char) (rest : List Char) : Word × List Char :=
  match if isQuote first then splitAtMark? first rest else none with
  | some (inside, after) => (.quoted inside, after)
  | none => (.bare (first :: rest.takeWhile isNotBlank), rest.dropWhile isNotBlank)

theorem length_dropWhile_le (test : Char → Bool) (text : List Char) :
    (text.dropWhile test).length ≤ text.length :=
  (List.dropWhile_sublist test).length_le

theorem length_firstWord_le (first : Char) (rest : List Char) :
    (firstWord first rest).2.length ≤ rest.length := by
  unfold firstWord
  split
  · next inside after found =>
    split at found
    · rw [eq_of_splitAtMark found]
      simp only [List.length_append, List.length_cons]
      omega
    · cases found
  · exact length_dropWhile_le _ _

def readWords : List Char → List Word
  | [] => []
  | c :: rest =>
    if isBlank c then readWords rest
    else (firstWord c rest).1 :: readWords (firstWord c rest).2
termination_by text => text.length
decreasing_by
  · simp
  · have shorter := length_firstWord_le c rest
    simp only [List.length_cons]
    omega

/-- A spelling of the empty string stands for it, and any other name for itself. -/
def unalias (options : GrammarOptions) (name : String) : String :=
  if options.epsilonAliases.contains name then Symbol.epsilon.name else name

def Word.name (options : GrammarOptions) : Word → String
  | .quoted text => String.ofList text
  | .bare text => unalias options (String.ofList text)

def symbolNames (options : GrammarOptions) (alternative : List Char) : List String :=
  if options.compactSymbols && !alternative.any (fun c => isBlank c || isQuote c) then
    alternative.map fun c => unalias options (String.singleton c)
  else (readWords alternative).map (Word.name options)

/-- The right-hand side of one alternative; an empty one stands for the empty string. -/
def alternativeNames (options : GrammarOptions) (alternative : List Char) : List String :=
  if alternative.isEmpty || options.epsilonAliases.contains (String.ofList alternative) then
    [Symbol.epsilon.name]
  else symbolNames options alternative

/-- The rules of a statement, one for each alternative; none if it is no statement. -/
def statementRules (options : GrammarOptions) (statement : List Char) : List Rule :=
  match readHead? statement with
  | none => []
  | some (name, right) =>
    (cutAt '|' (trim right)).map fun alternative =>
      ⟨String.ofList name, alternativeNames options (trim alternative)⟩

end Source

end Predictive
