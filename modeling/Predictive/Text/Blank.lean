/-! Blank characters, and the operations on text that depend only on them: trimming, and cutting a
text at a mark. -/

set_option autoImplicit false

namespace Predictive.Text

/-- A character that separates words: the ASCII controls from tab to carriage return and from
the file separator up, the space, and the Unicode spaces and separators. -/
def isBlank (c : Char) : Bool :=
  let point := c.toNat
  (9 ≤ point && point ≤ 13) || (28 ≤ point && point ≤ 32) || point == 0x85 || point == 0xA0 ||
    point == 0x1680 || (0x2000 ≤ point && point ≤ 0x200A) || point == 0x2028 ||
    point == 0x2029 || point == 0x202F || point == 0x205F || point == 0x3000

def trimStart (text : List Char) : List Char :=
  text.dropWhile isBlank

def trimEnd (text : List Char) : List Char :=
  (text.reverse.dropWhile isBlank).reverse

/-- The text without the blanks at its two ends. -/
def trim (text : List Char) : List Char :=
  trimEnd (trimStart text)

@[simp] theorem trim_nil : trim [] = [] := rfl

/-- The text before the first occurrence of a mark and, if there is one, the text after it. -/
def cutOnce (mark : Char) (text : List Char) : List Char × Option (List Char) :=
  match text.dropWhile (· != mark) with
  | [] => (text, none)
  | _ :: after => (text.takeWhile (· != mark), some after)

/-- The text after the last occurrence of a mark, or all of it. -/
def afterLast (mark : Char) (text : List Char) : List Char :=
  (text.reverse.takeWhile (· != mark)).reverse

/-- The pieces of a text between the occurrences of a mark; at least one, possibly empty. -/
def cutAt (mark : Char) : List Char → List (List Char)
  | [] => [[]]
  | c :: rest =>
    if c = mark then [] :: cutAt mark rest
    else match cutAt mark rest with
      | [] => [[c]]
      | piece :: pieces => (c :: piece) :: pieces

theorem cutAt_ne_nil (mark : Char) (text : List Char) : cutAt mark text ≠ [] := by
  cases text with
  | nil => simp [cutAt]
  | cons c rest =>
    unfold cutAt
    split
    · simp
    · split <;> simp

/-- The mark between neighbouring pieces. -/
def joinWith (mark : Char) : List (List Char) → List Char
  | [] => []
  | [piece] => piece
  | piece :: next :: pieces => piece ++ mark :: joinWith mark (next :: pieces)

theorem joinWith_cutAt (mark : Char) (text : List Char) :
    joinWith mark (cutAt mark text) = text := by
  induction text with
  | nil => rfl
  | cons c rest ih =>
    obtain ⟨piece, pieces, equal⟩ := List.exists_cons_of_ne_nil (cutAt_ne_nil mark rest)
    by_cases same : c = mark
    · subst same
      rw [equal] at ih
      simp [cutAt, equal, joinWith, ih]
    · rw [equal] at ih
      cases pieces <;> simp_all [cutAt, joinWith]

end Predictive.Text
