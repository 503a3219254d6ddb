import Predictive.Text.Blank
import Predictive.Grammar.Symbol

/-! Tokens, and cutting a text into them. Blanks separate tokens; elsewhere the longest name wins
that the text goes on with, and a character with which no name begins is a token of its own. -/

set_option autoImplicit false

namespace Predictive

structure Token where
  type : String
  value : String
  position : Int
  deriving DecidableEq, Repr

namespace Token

def text (token : Token) : String :=
  "Token(" ++ token.type ++ ", '" ++ token.value ++ "', pos=" ++ toString token.position ++ ")"

/-- Longer names come first, and names of one length in the order of their characters. -/
def precedes (left right : String) : Bool :=
  right.length < left.length || (left.length == right.length && left ≤ right)

/-- The names of some terminals in the order in which they are tried. -/
def trialOrder (terminals : List Symbol) : List String :=
  ((terminals.map Symbol.name).eraseDups).mergeSort precedes

/-- The first name with which a text begins. The empty name begins every text. -/
def nameAt? (names : List (List Char)) (text : List Char) : Option (List Char) :=
  names.find? (·.isPrefixOf text)

/-- What is read of a text at a character that is not blank: a name or, where none fits, the
character. -/
def lexemeAt (names : List (List Char)) (c : Char) (rest : List Char) : List Char :=
  (nameAt? names (c :: rest)).getD [c]

/-- The tokens that are read from a text at a position in a number of turns; none if the text has
not ended then. A turn in which the empty name is read leaves the text as it was. -/
def scan? (names : List (List Char)) : (turns position : Nat) → List Char → Option (List Token)
  | _, _, [] => some []
  | 0, _, _ :: _ => none
  | turns + 1, position, c :: rest =>
    if Text.isBlank c then scan? names turns (position + 1) rest
    else
      let lexeme := lexemeAt names c rest
      let shown := String.ofList lexeme
      (scan? names turns (position + lexeme.length) ((c :: rest).drop lexeme.length)).map
        (⟨shown, shown, position⟩ :: ·)

/-- The tokens of a text at a position; none if reading it never ends, which shows in as many turns
as the text has characters. -/
def read? (names : List (List Char)) (position : Nat) (text : List Char) : Option (List Token) :=
  scan? names text.length position text

def tokenize? (terminals : List Symbol) (text : String) : Option (List Token) :=
  read? ((trialOrder terminals).map String.toList) 0 text.toList

section
variable {names : List (List Char)} {c : Char} {rest : List Char}

theorem scan?_of_empty (solid : Text.isBlank c = false) (empty : lexemeAt names c rest = [])
    (turns position : Nat) : scan? names turns position (c :: rest) = none := by
  induction turns with
  | zero => rfl
  | succ turns ih => simp [scan?, solid, empty, ih]

/-- As many turns as a text has characters are as good as any more: what they do not come to the
end of never ends. -/
theorem scan?_turns {turns more : Nat} {text : List Char} (enough : text.length ≤ turns)
    (plenty : text.length ≤ more) (position : Nat) :
    scan? names turns position text = scan? names more position text := by
  induction turns generalizing more position text with
  | zero =>
    rw [List.length_eq_zero_iff.mp (Nat.le_zero.mp enough)]
    cases more <;> rfl
  | succ turns ih =>
    cases text with
    | nil => cases more <;> rfl
    | cons c rest =>
      cases more with
      | zero => exact absurd plenty (Nat.not_succ_le_zero _)
      | succ more =>
        rw [List.length_cons] at enough plenty
        cases solid : Text.isBlank c with
        | true =>
          simp only [scan?, solid, if_true]
          exact ih (by omega) (by omega) _
        | false =>
          cases lexeme : lexemeAt names c rest with
          | nil => rw [scan?_of_empty solid lexeme, scan?_of_empty solid lexeme]
          | cons first others =>
            -- a lexeme that is not empty leaves less, for which both numbers of turns are enough
            have left : (rest.drop others.length).length ≤ rest.length := by simp
            simp only [scan?, solid, lexeme, Bool.false_eq_true, if_false, List.length_cons,
              List.drop_succ_cons, ih (Nat.le_trans left (by omega : rest.length ≤ turns))
                (Nat.le_trans left (by omega : rest.length ≤ more))]

@[simp] theorem read?_nil (position : Nat) : read? names position [] = some [] := rfl

theorem read?_blank (blank : Text.isBlank c = true) (position : Nat) :
    read? names position (c :: rest) = read? names (position + 1) rest := by
  simp [read?, scan?, blank]

theorem read?_solid (solid : Text.isBlank c = false) {lexeme : String}
    (taken : String.ofList (lexemeAt names c rest) = lexeme) (some : 0 < lexeme.length)
    (position : Nat) :
    read? names position (c :: rest) =
      (read? names (position + lexeme.length) ((c :: rest).drop lexeme.length)).map
        (⟨lexeme, lexeme, position⟩ :: ·) := by
  have length : (lexemeAt names c rest).length = lexeme.length := by
    rw [← taken, String.length_ofList]
  have left : ((c :: rest).drop lexeme.length).length ≤ rest.length := by simp; omega
  simp only [read?, List.length_cons, scan?, solid, Bool.false_eq_true, if_false, length, taken,
    scan?_turns left (Nat.le_refl _)]

end

end Token

end Predictive
