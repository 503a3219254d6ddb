import Predictive.Text.Blank

/-! Comments and blank lines in grammar texts. Line comments go first, so a block comment that is
opened behind `//` does not count; what is left is trimmed line by line. -/

set_option autoImplicit false

namespace Predictive.Source

open Text

/-- A line up to its first `//`. -/
def cutLineComment : List Char → List Char
  | [] => []
  | '/' :: '/' :: _ => []
  | c :: rest => c :: cutLineComment rest

def dropLineComments (text : List Char) : List Char :=
  joinWith '\n' ((cutAt '\n' text).map cutLineComment)

/-- What follows the first `*/`. -/
def afterBlock? : List Char → Option (List Char)
  | [] => none
  | '*' :: '/' :: rest => some rest
  | _ :: rest => afterBlock? rest

theorem length_afterBlock {text rest : List Char} (found : afterBlock? text = some rest) :
    rest.length < text.length := by
  fun_induction afterBlock? text with
  | case1 => simp at found
  | case2 after =>
    cases found
    simp only [List.length_cons]
    omega
  | case3 first others _ ih =>
    have shorter := ih found
    simp only [List.length_cons]
    omega

/-- The text without its block comments. A comment ends at the first `*/`, and one that never
ends is no comment. -/
def dropBlockComments : List Char → List Char
  | [] => []
  | '/' :: '*' :: rest =>
    match _found : afterBlock? rest with
    | some after => dropBlockComments after
    | none => '/' :: '*' :: rest
  | c :: rest => c :: dropBlockComments rest
termination_by text => text.length
decreasing_by
  · have shorter := length_afterBlock _found
    simp only [List.length_cons]
    omega
  · simp

/-- Whether a trimmed line says anything. -/
def isKept (line : List Char) : Bool :=
  !line.isEmpty && line.head? != some '#'

def cleanLines (text : List Char) : List (List Char) :=
  ((cutAt '\n' (dropBlockComments (dropLineComments text))).map trim).filter isKept

def clean (text : List Char) : List Char :=
  joinWith '\n' (cleanLines text)

end Predictive.Source
