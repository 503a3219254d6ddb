import Predictive.Source.Alternative
import Mathlib.Data.List.Chain
import Mathlib.Tactic.MkIffOfInductiveProp

/-! Texts that are read as they are written. Lines of a head and a right-hand text in which no
comment opens pass through the cleaning unchanged, each of them is a statement, and words between
single spaces are the words that are read. -/

set_option autoImplicit false

namespace Predictive

namespace Text

variable {text : List Char} {mark : Char} {pieces : List (List Char)}

theorem dropWhile_eq_self {test : Char → Bool} (first : ∀ c ∈ text.head?, test c = false) :
    text.dropWhile test = text := by
  cases text with
  | nil => rfl
  | cons c rest => simp [first c rfl]

/-- A text without blanks at its ends is left as it is. -/
theorem trim_eq_self (first : ∀ c ∈ text.head?, isBlank c = false)
    (last : ∀ c ∈ text.getLast?, isBlank c = false) : trim text = text := by
  unfold trim trimEnd trimStart
  rw [dropWhile_eq_self first, dropWhile_eq_self (by simpa using last), List.reverse_reverse]

theorem cutAt_eq_singleton (absent : mark ∉ text) : cutAt mark text = [text] := by
  induction text with
  | nil => rfl
  | cons c rest ih =>
    obtain ⟨other, absent⟩ : mark ≠ c ∧ mark ∉ rest := by simpa using absent
    simp [cutAt, other.symm, ih absent]

theorem cutAt_append_mark (left right : List Char) :
    cutAt mark (left ++ mark :: right) = cutAt mark left ++ cutAt mark right := by
  induction left with
  | nil => simp [cutAt]
  | cons c left ih =>
    by_cases same : c = mark
    · simp [cutAt, same, ih]
    · obtain ⟨piece, pieces, cut⟩ := List.exists_cons_of_ne_nil (cutAt_ne_nil mark left)
      simp [cutAt, same, ih, cut]

/-- Joined pieces come apart where they were joined, and at the marks inside them. -/
theorem cutAt_joinWith_flatMap (some : pieces ≠ []) :
    cutAt mark (joinWith mark pieces) = pieces.flatMap (cutAt mark) := by
  induction pieces with
  | nil => exact absurd rfl some
  | cons piece rest ih =>
    cases rest with
    | nil => simp [joinWith]
    | cons next more =>
      rw [List.flatMap_cons, ← ih (by simp)]
      exact cutAt_append_mark _ _

theorem flatMap_cutAt (absent : ∀ piece ∈ pieces, mark ∉ piece) :
    pieces.flatMap (cutAt mark) = pieces := by
  induction pieces with
  | nil => rfl
  | cons piece rest ih =>
    obtain ⟨first, others⟩ := List.forall_mem_cons.mp absent
    rw [List.flatMap_cons, ih others, cutAt_eq_singleton first]
    rfl

theorem cutAt_joinWith (some : pieces ≠ []) (absent : ∀ piece ∈ pieces, mark ∉ piece) :
    cutAt mark (joinWith mark pieces) = pieces := by
  rw [cutAt_joinWith_flatMap some, flatMap_cutAt absent]

theorem joinWith_eq_intercalate (mark : Char) (pieces : List (List Char)) :
    joinWith mark pieces = [mark].intercalate pieces := by
  induction pieces with
  | nil => rfl
  | cons piece rest ih =>
    cases rest with
    | nil => simp [joinWith]
    | cons next more =>
      rw [List.intercalate_cons_cons, ← ih]
      simp [joinWith]

theorem joinWith_ne_nil (some : pieces ≠ []) (each : ∀ piece ∈ pieces, piece ≠ []) :
    joinWith mark pieces ≠ [] := by
  cases pieces with
  | nil => exact absurd rfl some
  | cons piece rest => cases rest <;> simp_all [joinWith]

theorem mem_joinWith {c : Char} (member : c ∈ joinWith mark pieces) :
    c = mark ∨ ∃ piece ∈ pieces, c ∈ piece := by
  induction pieces with
  | nil => cases member
  | cons piece rest ih =>
    cases rest with
    | nil => exact .inr ⟨piece, by simp, member⟩
    | cons next more =>
      have split : c ∈ piece ∨ c = mark ∨ c ∈ joinWith mark (next :: more) := by
        simpa [joinWith] using member
      rcases split with inside | same | later
      · exact .inr ⟨piece, by simp, inside⟩
      · exact .inl same
      · rcases ih later with same | ⟨other, known, inside⟩
        · exact .inl same
        · exact .inr ⟨other, List.mem_cons_of_mem _ known, inside⟩

/-- A join of pieces that are not empty begins inside the first of them. -/
theorem mem_of_head?_joinWith (each : ∀ piece ∈ pieces, piece ≠ []) {c : Char}
    (first : c ∈ (joinWith mark pieces).head?) : ∃ piece ∈ pieces, c ∈ piece := by
  cases pieces with
  | nil => cases first
  | cons piece rest =>
    refine ⟨piece, by simp, ?_⟩
    have some : piece ≠ [] := each piece (by simp)
    cases rest with
    | nil => exact List.mem_of_head? first
    | cons next more =>
      rw [joinWith, List.head?_append_of_ne_nil _ some] at first
      exact List.mem_of_head? first

theorem mem_of_getLast?_joinWith (each : ∀ piece ∈ pieces, piece ≠ []) {c : Char}
    (last : c ∈ (joinWith mark pieces).getLast?) : ∃ piece ∈ pieces, c ∈ piece := by
  induction pieces with
  | nil => cases last
  | cons piece rest ih =>
    obtain ⟨_, others⟩ := List.forall_mem_cons.mp each
    cases rest with
    | nil => exact ⟨piece, by simp, List.mem_of_getLast? last⟩
    | cons next more =>
      have some : joinWith mark (next :: more) ≠ [] := joinWith_ne_nil (by simp) others
      have whole : joinWith mark (piece :: next :: more) =
          (piece ++ [mark]) ++ joinWith mark (next :: more) := by simp [joinWith]
      rw [whole, List.getLast?_append_of_ne_nil _ some] at last
      obtain ⟨other, known, inside⟩ := ih others last
      exact ⟨other, List.mem_cons_of_mem _ known, inside⟩

end Text

namespace Source

open Text

variable {text name right line : List Char} {lines pieces : List (List Char)} {mark : Char}

/-! ### Comments -/

/-- One character does not follow the other. -/
def Apart (left right first second : Char) : Prop :=
  first = left → second ≠ right

theorem isChain_apart {left right : Char} :
    text.IsChain (Apart left right) ↔ ¬ [left, right] <:+: text := by
  rw [List.isChain_iff_forall_rel_of_append_cons_cons]
  constructor
  · rintro apart ⟨before, after, rfl⟩
    have split : before ++ [left, right] ++ after = before ++ left :: right :: after := by simp
    exact apart split rfl rfl
  · rintro absent first second before after rfl rfl rfl
    exact absent ⟨before, after, by simp⟩

/-- Behind the one character, the other does not come, nor is it first in what is appended. -/
theorem head?_append_ne {first second : Char} {rest : List Char}
    (apart : (first :: rest).IsChain (Apart first second)) (other : right.head? ≠ some second) :
    (rest ++ right).head? ≠ some second := by
  cases rest with
  | nil => exact other
  | cons next more =>
    have follows := (List.isChain_cons_cons.mp apart).1 rfl
    simpa using follows

/-- No comment opens with these two characters. -/
def Harmless (first second : Char) : Prop :=
  first = '/' → second ≠ '/' ∧ second ≠ '*'

theorem isChain_harmless (line : ¬['/', '/'] <:+: text) (block : ¬['/', '*'] <:+: text) :
    text.IsChain Harmless := by
  rw [List.isChain_iff_forall_rel_of_append_cons_cons]
  rintro first second before after rfl rfl
  constructor
  · rintro rfl
    exact line ⟨before, after, by simp⟩
  · rintro rfl
    exact block ⟨before, after, by simp⟩

theorem isChain_harmless_of_not_mem (slashless : '/' ∉ text) : text.IsChain Harmless :=
  isChain_harmless (fun inside => slashless (inside.subset (by simp)))
    fun inside => slashless (inside.subset (by simp))

theorem cutLineComment_cons {c : Char} {rest : List Char}
    (other : c = '/' → rest.head? ≠ some '/') :
    cutLineComment (c :: rest) = c :: cutLineComment rest := by
  rw [cutLineComment]
  rintro more rfl rfl
  exact other rfl rfl

theorem cutLineComment_append (apart : line.IsChain (Apart '/' '/'))
    (other : right.head? ≠ some '/') :
    cutLineComment (line ++ right) = line ++ cutLineComment right := by
  induction line with
  | nil => rfl
  | cons c rest ih =>
    rw [List.cons_append, cutLineComment_cons, ih apart.tail, List.cons_append]
    rintro rfl
    exact head?_append_ne apart other

theorem cutLineComment_eq_self (apart : line.IsChain (Apart '/' '/')) :
    cutLineComment line = line := by
  have nothing : ([] : List Char).head? ≠ some '/' := by simp
  have kept := cutLineComment_append apart nothing
  rwa [cutLineComment, List.append_nil] at kept

theorem dropBlockComments_eq_self (harmless : text.IsChain Harmless) :
    dropBlockComments text = text := by
  fun_induction dropBlockComments text with
  | case1 => rfl
  | case2 rest => exact absurd rfl ((List.isChain_cons_cons.mp harmless).1 rfl).2
  | case3 rest => rfl
  | case4 c rest _ ih => rw [ih harmless.tail]

section
variable {Next : Char → Char → Prop} (before : ∀ c, Next c mark) (after : ∀ c, Next mark c)
include before after

/-- What may follow anything and be followed by anything keeps two texts apart. -/
theorem isChain_append_mark {left : List Char} (first : left.IsChain Next)
    (second : right.IsChain Next) : (left ++ mark :: right).IsChain Next := by
  refine List.isChain_append.mpr ⟨first, ?_, ?_⟩
  · exact List.isChain_cons.mpr ⟨fun next _ => after next, second⟩
  · intro last _ next member
    obtain rfl : mark = next := by simpa using member
    exact before last

theorem isChain_joinWith (each : ∀ piece ∈ pieces, piece.IsChain Next) :
    (joinWith mark pieces).IsChain Next := by
  induction pieces with
  | nil => exact .nil
  | cons piece rest ih =>
    obtain ⟨first, others⟩ := List.forall_mem_cons.mp each
    cases rest with
    | nil => exact first
    | cons next more => exact isChain_append_mark before after first (ih others)

end

theorem harmless_before (slash : mark ≠ '/') (star : mark ≠ '*') (c : Char) : Harmless c mark :=
  fun _ => ⟨slash, star⟩

theorem harmless_after (slash : mark ≠ '/') (c : Char) : Harmless mark c :=
  fun same => absurd same slash

/-! ### Lines -/

/-- A line that cleaning keeps as it is, and that is a statement of its own. -/
structure StandsAlone (line : List Char) : Prop where
  unbroken : '\n' ∉ line
  harmless : line.IsChain Harmless
  trimmed : trim line = line
  kept : isKept line = true
  head : isHead line = true

theorem cleanLines_joinWith (some : lines ≠ []) (each : ∀ line ∈ lines, StandsAlone line) :
    cleanLines (joinWith '\n' lines) = lines := by
  have apart : cutAt '\n' (joinWith '\n' lines) = lines :=
    cutAt_joinWith some fun line member => (each line member).unbroken
  have whole : dropLineComments (joinWith '\n' lines) = joinWith '\n' lines := by
    unfold dropLineComments
    rw [apart, List.map_congr_left fun line member => cutLineComment_eq_self
      ((each line member).harmless.imp fun _ _ harmless same => (harmless same).1), List.map_id']
  unfold cleanLines
  rw [whole, dropBlockComments_eq_self (isChain_joinWith (harmless_before (by decide) (by decide))
    (harmless_after (by decide)) fun line member => (each line member).harmless), apart,
    List.map_congr_left fun line member => (each line member).trimmed, List.map_id',
    List.filter_eq_self.mpr fun line member => (each line member).kept]

theorem continueStatement_of_heads (heads : ∀ line ∈ lines, isHead line = true)
    (current : List Char) : continueStatement current lines = current :: lines := by
  induction lines generalizing current with
  | nil => rfl
  | cons line rest ih =>
    obtain ⟨first, others⟩ := List.forall_mem_cons.mp heads
    rw [continueStatement, if_pos first, ih others]

/-- Lines that stand alone are the statements of their text. -/
theorem statements_clean (some : lines ≠ []) (each : ∀ line ∈ lines, StandsAlone line) :
    statements (clean (joinWith '\n' lines)) = .ok lines := by
  unfold statements clean
  rw [cleanLines_joinWith some each,
    cutAt_joinWith some fun line member => (each line member).unbroken]
  cases lines with
  | nil => exact absurd rfl some
  | cons line rest =>
    obtain ⟨first, others⟩ := List.forall_mem_cons.mp each
    rw [groupLines, if_pos first.head,
      continueStatement_of_heads fun line member => (others line member).head]

/-! ### Heads and words -/

/-- A name that may stand on the left of an arrow. -/
def IsLeftName : List Char → Prop
  | [] => False
  | first :: rest => startsName first = true ∧ rest.all continuesName = true

instance : DecidablePred IsLeftName
  | [] => inferInstanceAs (Decidable False)
  | _ :: _ => inferInstanceAs (Decidable (_ ∧ _))

theorem IsLeftName.exists_cons (named : IsLeftName name) :
    ∃ first rest, name = first :: rest ∧ startsName first = true ∧
      ∀ c ∈ rest, continuesName c = true := by
  cases name with
  | nil => exact named.elim
  | cons first rest => exact ⟨first, rest, rfl, named.1, List.all_eq_true.mp named.2⟩

theorem isBlank_of_startsName {c : Char} (starts : startsName c = true) : isBlank c = false := by
  have place : c = '_' ∨ (97 ≤ c.toNat ∧ c.toNat ≤ 122) ∨ (65 ≤ c.toNat ∧ c.toNat ≤ 90) := by
    simp only [startsName, isAsciiLetter, Bool.or_eq_true, Bool.and_eq_true, decide_eq_true_eq,
      beq_iff_eq, Char.le_def, UInt32.le_iff_toNat_le] at starts
    rcases starts with (low | high) | same
    · exact .inr (.inl low)
    · exact .inr (.inr high)
    · exact .inl same
  rcases place with rfl | range
  · decide
  · simp only [isBlank, Bool.or_eq_false_iff, Bool.and_eq_false_iff, decide_eq_false_iff_not,
      beq_eq_false_iff_ne]
    omega

/-- A left-hand name, an arrow and a text. -/
def arrowLine (name right : List Char) : List Char :=
  name ++ ' ' :: '-' :: '>' :: ' ' :: right

/-- A text that is one alternative, and stays as it is behind an arrow. -/
structure IsRightText (right : List Char) : Prop where
  some : right ≠ []
  first : ∀ c ∈ right.head?, isBlank c = false
  last : ∀ c ∈ right.getLast?, isBlank c = false
  single : '|' ∉ right
  unbroken : '\n' ∉ right
  harmless : right.IsChain Harmless

theorem IsLeftName.not_mem {c : Char} (named : IsLeftName name) (starts : startsName c = false)
    (continues : continuesName c = false) : c ∉ name := by
  obtain ⟨first, rest, rfl, initial, later⟩ := named.exists_cons
  intro member
  rcases List.mem_cons.mp member with rfl | member
  · simp [initial] at starts
  · simp [later c member] at continues

theorem readHead?_arrowLine (named : IsLeftName name)
    (solid : ∀ c ∈ right.head?, isBlank c = false) :
    readHead? (arrowLine name right) = some (name, right) := by
  obtain ⟨initial, rest, rfl, starts, continues⟩ := named.exists_cons
  have whole : trimStart (arrowLine (initial :: rest) right) =
      initial :: (rest ++ ' ' :: '-' :: '>' :: ' ' :: right) :=
    dropWhile_eq_self (by simpa [arrowLine] using isBlank_of_startsName starts)
  have stops : continuesName ' ' = false := by decide
  have arrow : trimStart (' ' :: '-' :: '>' :: ' ' :: right) = '-' :: '>' :: ' ' :: right := rfl
  have after : trimStart (' ' :: right) = right := dropWhile_eq_self solid
  unfold readHead?
  rw [whole]
  dsimp only
  rw [if_pos starts, List.takeWhile_append_of_pos continues, List.dropWhile_append_of_pos continues,
    List.takeWhile_cons, List.dropWhile_cons, stops]
  simp [arrow, afterArrow?, after]

theorem trim_arrowLine (named : IsLeftName name) (some : right ≠ [])
    (last : ∀ c ∈ right.getLast?, isBlank c = false) :
    trim (arrowLine name right) = arrowLine name right := by
  obtain ⟨first, rest, rfl, starts, _⟩ := named.exists_cons
  refine trim_eq_self ?_ ?_
  · simp [arrowLine, isBlank_of_startsName starts]
  · have whole : arrowLine (first :: rest) right =
        (first :: rest ++ [' ', '-', '>', ' ']) ++ right := by simp [arrowLine]
    rw [whole, List.getLast?_append_of_ne_nil _ some]
    exact last

theorem isKept_arrowLine (named : IsLeftName name) (right : List Char) :
    isKept (arrowLine name right) = true := by
  obtain ⟨first, rest, rfl, starts, _⟩ := named.exists_cons
  have other : first ≠ '#' := by
    rintro rfl
    exact absurd starts (by decide)
  simp [isKept, arrowLine, other]

theorem standsAlone_arrowLine (named : IsLeftName name) (text : IsRightText right) :
    StandsAlone (arrowLine name right) := by
  have slashless : '/' ∉ name := named.not_mem (by decide) (by decide)
  have unbroken : '\n' ∉ name := named.not_mem (by decide) (by decide)
  have harmless : name.IsChain Harmless := isChain_harmless_of_not_mem slashless
  refine ⟨?_, ?_, ?_, ?_, ?_⟩
  · simp [arrowLine, unbroken, text.unbroken]
  · have arrow : ['-', '>'].IsChain Harmless := by simp [Harmless]
    have before : ∀ c, Harmless c ' ' := harmless_before (by decide) (by decide)
    have after : ∀ c, Harmless ' ' c := harmless_after (by decide)
    exact isChain_append_mark before after harmless
      (isChain_append_mark before after arrow text.harmless)
  · exact trim_arrowLine named text.some text.last
  · exact isKept_arrowLine named right
  · simp [isHead, readHead?_arrowLine named text.first]

theorem statementRules_cut {options : GrammarOptions} (named : IsLeftName name)
    (solid : ∀ c ∈ right.head?, isBlank c = false) :
    statementRules options (arrowLine name right) =
      (cutAt '|' (trim right)).map fun alternative =>
        ⟨String.ofList name, alternativeNames options (trim alternative)⟩ := by
  simp only [statementRules, readHead?_arrowLine named solid]

theorem statementRules_arrowLine {options : GrammarOptions} (named : IsLeftName name)
    (text : IsRightText right) :
    statementRules options (arrowLine name right) =
      [⟨String.ofList name, alternativeNames options right⟩] := by
  have trimmed : trim right = right := trim_eq_self text.first text.last
  rw [statementRules_cut named text.first, trimmed, cutAt_eq_singleton text.single,
    List.map_singleton, trimmed]

/-- A word that is read as it is: not empty, without blanks, and not opened by a quote. -/
@[mk_iff]
structure IsBareWord (word : List Char) : Prop where
  some : word ≠ []
  solid : ∀ c ∈ word, isBlank c = false
  unquoted : word.head?.any isQuote = false

instance : DecidablePred IsBareWord :=
  fun word => decidable_of_iff
    (word ≠ [] ∧ word.all isNotBlank = true ∧ word.head?.any isQuote = false)
    (by simp [isBareWord_iff, isNotBlank])

theorem firstWord_append {word : List Char} {first : Char} (bare : IsBareWord (first :: word))
    (rest : List Char) (stops : ∀ c ∈ rest.head?, isBlank c = true) :
    firstWord first (word ++ rest) = (.bare (first :: word), rest) := by
  have solid : ∀ c ∈ word, isNotBlank c = true := by
    intro c member
    simp [isNotBlank, bare.solid c (List.mem_cons_of_mem _ member)]
  have ended : ∀ c ∈ rest.head?, isNotBlank c = false := by
    intro c member
    simp [isNotBlank, stops c member]
  have nothing : rest.takeWhile isNotBlank = [] := by
    cases rest with
    | nil => rfl
    | cons c more => simp [ended c rfl]
  have unquoted : isQuote first = false := bare.unquoted
  unfold firstWord
  rw [unquoted]
  simp [List.takeWhile_append_of_pos solid, List.dropWhile_append_of_pos solid, nothing,
    dropWhile_eq_self ended]

theorem readWords_nil : readWords [] = [] := by
  rw [readWords.eq_def]

theorem readWords_blank {c : Char} (blank : isBlank c = true) (rest : List Char) :
    readWords (c :: rest) = readWords rest := by
  rw [readWords.eq_def]
  exact if_pos blank

theorem readWords_append {word : List Char} (bare : IsBareWord word) (rest : List Char)
    (stops : ∀ c ∈ rest.head?, isBlank c = true) :
    readWords (word ++ rest) = .bare word :: readWords rest := by
  cases word with
  | nil => exact absurd rfl bare.some
  | cons first word =>
    have solid := bare.solid first List.mem_cons_self
    rw [List.cons_append, readWords.eq_def]
    dsimp only
    rw [if_neg (by simp [solid]), firstWord_append bare rest stops]

/-- Words between single spaces are the words that are read. -/
theorem readWords_joinWith (each : ∀ piece ∈ pieces, IsBareWord piece) :
    readWords (joinWith ' ' pieces) = pieces.map Word.bare := by
  induction pieces with
  | nil => exact readWords_nil
  | cons piece rest ih =>
    obtain ⟨bare, others⟩ := List.forall_mem_cons.mp each
    cases rest with
    | nil =>
      have read := readWords_append bare [] (by simp)
      rwa [List.append_nil, readWords_nil] at read
    | cons next more =>
      change readWords (piece ++ ' ' :: joinWith ' ' (next :: more)) = _
      rw [readWords_append bare _ (by simp [isBlank]), readWords_blank (by decide), ih others]
      rfl

end Source

end Predictive
