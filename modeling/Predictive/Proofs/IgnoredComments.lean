import Predictive.Proofs.CleanText
import Predictive.Source.Loader
import Mathlib.Data.List.Infix
import Mathlib.Data.List.TakeWhile

/-! Block comments on lines of their own. Cleaning takes such a comment out unless its last line
opens a line comment: line comments go first, and that one takes the end of the block comment with
it. What is left of the block comment is then read as lines of the grammar. -/

set_option autoImplicit false

namespace Predictive

namespace Text

variable {mark : Char} {text line : List Char}

/-- A text with one more line, before which a number of its lines stand. -/
def insertLine (boundary : Nat) (line text : List Char) : List Char :=
  let lines := cutAt '\n' text
  joinWith '\n' (lines.take boundary ++ line :: lines.drop boundary)

theorem joinWith_around (above below : List (List Char)) :
    joinWith mark (above ++ line :: below) =
      above.flatMap (· ++ [mark]) ++ (line ++ below.flatMap (mark :: ·)) := by
  induction above with
  | nil =>
    induction below generalizing line with
    | nil => simp [joinWith]
    | cons next below ih => simpa [joinWith] using ih
  | cons first above ih =>
    obtain ⟨next, rest, same⟩ := List.exists_cons_of_ne_nil (l := above ++ line :: below) (by simp)
    rw [List.cons_append, same, joinWith, ← same, ih]
    simp

theorem joinWith_append {left right : List (List Char)} (first : left ≠ []) (second : right ≠ []) :
    joinWith mark (left ++ right) = joinWith mark left ++ mark :: joinWith mark right := by
  induction left with
  | nil => exact absurd rfl first
  | cons piece left ih =>
    cases left with
    | nil =>
      obtain ⟨next, more, rfl⟩ := List.exists_cons_of_ne_nil second
      rfl
    | cons next more =>
      change piece ++ mark :: joinWith mark (next :: more ++ right) = _
      rw [ih (by simp)]
      simp [joinWith]

theorem infix_joinWith {pieces : List (List Char)} (member : line ∈ pieces) :
    line <:+: joinWith mark pieces := by
  obtain ⟨above, below, rfl⟩ := List.append_of_mem member
  rw [joinWith_around]
  exact ⟨_, _, List.append_assoc _ _ _⟩

theorem infix_of_mem_cutAt (member : line ∈ cutAt mark text) : line <:+: text := by
  have inside : line <:+: joinWith mark (cutAt mark text) := infix_joinWith member
  rwa [joinWith_cutAt] at inside

theorem not_mem_of_mem_cutAt {piece : List Char} (member : piece ∈ cutAt mark text) :
    mark ∉ piece := by
  induction text generalizing piece with
  | nil => simp_all [cutAt]
  | cons c rest ih =>
    obtain ⟨first, others, cut⟩ := List.exists_cons_of_ne_nil (cutAt_ne_nil mark rest)
    rw [cut] at ih
    by_cases same : c = mark
    · simp only [cutAt, same, if_true, cut] at member
      rcases List.mem_cons.mp member with rfl | later
      · simp
      · exact ih later
    · simp only [cutAt, same, if_false, cut] at member
      rcases List.mem_cons.mp member with rfl | later
      · have behind := ih List.mem_cons_self
        simp [Ne.symm same, behind]
      · exact ih (List.mem_cons_of_mem _ later)

/-- The lines above and below are those of the text, whatever line is put between them. -/
theorem cutAt_insertLine (boundary : Nat) (line text : List Char) :
    cutAt '\n' (insertLine boundary line text) =
      (cutAt '\n' text).take boundary ++ cutAt '\n' line ++ (cutAt '\n' text).drop boundary := by
  have above : ∀ piece ∈ (cutAt '\n' text).take boundary, '\n' ∉ piece :=
    fun _ part => not_mem_of_mem_cutAt (List.mem_of_mem_take part)
  have below : ∀ piece ∈ (cutAt '\n' text).drop boundary, '\n' ∉ piece :=
    fun _ part => not_mem_of_mem_cutAt (List.mem_of_mem_drop part)
  unfold insertLine
  dsimp only
  rw [cutAt_joinWith_flatMap (by simp), List.flatMap_append, List.flatMap_cons,
    flatMap_cutAt above, flatMap_cutAt below, List.append_assoc]

/-- An inserted line stands between two texts in which nothing is new but line breaks. -/
theorem exists_insertLine_eq (boundary : Nat) (text : List Char) :
    ∃ before after, (∀ line, insertLine boundary line text = before ++ (line ++ after)) ∧
      (∀ c ∈ before ++ after, c = '\n' ∨ c ∈ text) ∧ ∀ c ∈ after.head?, c = '\n' := by
  refine ⟨_, _, fun line => joinWith_around _ _, ?_, ?_⟩
  · intro c member
    have known {piece : List Char} (part : piece ∈ cutAt '\n' text) (inside : c ∈ piece) :
        c = '\n' ∨ c ∈ text := .inr ((infix_of_mem_cutAt part).subset inside)
    rcases List.mem_append.mp member with early | late
    · obtain ⟨piece, part, inside⟩ := List.mem_flatMap.mp early
      rcases List.mem_append.mp inside with inside | fresh
      · exact known (List.mem_of_mem_take part) inside
      · exact .inl (List.mem_singleton.mp fresh)
    · obtain ⟨piece, part, inside⟩ := List.mem_flatMap.mp late
      rcases List.mem_cons.mp inside with fresh | inside
      · exact .inl fresh
      · exact known (List.mem_of_mem_drop part) inside
  · intro c first
    cases below : (cutAt '\n' text).drop boundary with
    | nil => simp [below] at first
    | cons piece rest => simpa [below, eq_comm] using first

/-- A text is what stands behind its last mark, or this behind something and a mark. -/
theorem afterLast_cases (mark : Char) (text : List Char) :
    mark ∉ afterLast mark text ∧
      (text = afterLast mark text ∨ ∃ before, text = before ++ mark :: afterLast mark text) := by
  have split := List.takeWhile_append_dropWhile (p := (· != mark)) (l := text.reverse)
  constructor
  · intro member
    have passed := List.mem_takeWhile_imp (List.mem_reverse.mp member)
    simp at passed
  · have whole := congrArg List.reverse split
    rw [List.reverse_append, List.reverse_reverse] at whole
    change _ ++ afterLast mark text = text at whole
    cases left : text.reverse.dropWhile (· != mark) with
    | nil =>
      rw [left] at whole
      exact .inl whole.symm
    | cons c rest =>
      have stopped := List.head?_dropWhile_not (· != mark) text.reverse
      rw [left] at stopped whole
      obtain rfl : c = mark := by simpa using stopped
      refine .inr ⟨rest.reverse, ?_⟩
      rw [List.reverse_cons, List.append_assoc] at whole
      exact whole.symm

end Text

namespace Source

open Text

variable {c : Char} {text line left right rest body after : List Char}

/-- A block comment with what stands in it. -/
def blockComment (body : List Char) : List Char :=
  '/' :: '*' :: (body ++ ['*', '/'])

def withoutComments (text : List Char) : List Char :=
  dropBlockComments (dropLineComments text)

/-! ### Line comments -/

/-- Behind the opening of a line comment, nothing matters. -/
theorem cutLineComment_append_of_opening (opens : ['/', '/'] <:+: line) (right : List Char) :
    cutLineComment (line ++ right) = cutLineComment line := by
  fun_induction cutLineComment line with
  | case1 => simp at opens
  | case2 rest => rfl
  | case3 c rest early ih =>
    -- the line comment opens here, which this case excludes, or in the rest
    rcases List.infix_cons_iff.mp opens with here | later
    · obtain ⟨more, same⟩ := here
      obtain ⟨rfl, rfl⟩ := List.cons.inj same
      exact (early more rfl rfl).elim
    · have some : rest ≠ [] := by
        rintro rfl
        simp at later
      rw [List.cons_append, cutLineComment_cons, ih later]
      rintro rfl next
      rw [List.head?_append_of_ne_nil _ some] at next
      obtain ⟨more, rfl⟩ := List.head?_eq_some_iff.mp next
      exact early more rfl rfl

theorem dropLineComments_eq_cutLineComment (unbroken : '\n' ∉ line) :
    dropLineComments line = cutLineComment line := by
  rw [dropLineComments, cutAt_eq_singleton unbroken]
  rfl

theorem dropLineComments_append_mark (left right : List Char) :
    dropLineComments (left ++ '\n' :: right) =
      dropLineComments left ++ '\n' :: dropLineComments right := by
  unfold dropLineComments
  rw [cutAt_append_mark, List.map_append, joinWith_append] <;> simp [cutAt_ne_nil]

theorem dropLineComments_cons (other : c = '/' → rest.head? ≠ some '/') :
    dropLineComments (c :: rest) = c :: dropLineComments rest := by
  -- a line break ends a line of its own; any other character goes to the first line of the rest
  by_cases broken : c = '\n'
  · subst broken
    exact dropLineComments_append_mark [] rest
  · obtain ⟨piece, pieces, cut⟩ := List.exists_cons_of_ne_nil (cutAt_ne_nil '\n' rest)
    -- the first line of the rest begins as the rest does
    have first : c = '/' → piece.head? ≠ some '/' := by
      intro slash opens
      obtain ⟨more, rfl⟩ := List.head?_eq_some_iff.mp opens
      apply other slash
      rw [← joinWith_cutAt '\n' rest, cut]
      cases pieces <;> rfl
    have apart : cutAt '\n' (c :: rest) = (c :: piece) :: pieces := by
      simp [cutAt, broken, cut]
    rw [dropLineComments, dropLineComments, apart, cut, List.map_cons, List.map_cons,
      cutLineComment_cons first]
    cases pieces <;> rfl

/-- Text without a slash stays as it is, and changes nothing behind it. -/
theorem dropLineComments_append (slashless : '/' ∉ left) (right : List Char) :
    dropLineComments (left ++ right) = left ++ dropLineComments right := by
  induction left with
  | nil => rfl
  | cons c left ih =>
    obtain ⟨other, absent⟩ : '/' ≠ c ∧ '/' ∉ left := by simpa using slashless
    rw [List.cons_append, dropLineComments_cons fun slash => absurd slash.symm other, ih absent,
      List.cons_append]

theorem dropLineComments_eq_self (slashless : '/' ∉ text) : dropLineComments text = text := by
  have kept := dropLineComments_append slashless []
  have nothing : dropLineComments [] = [] := rfl
  rwa [nothing, List.append_nil] at kept

/-- Lines without a slash stay as they are, and change nothing before them. -/
theorem dropLineComments_append_lines (slashless : '/' ∉ after)
    (starts : ∀ c ∈ after.head?, c = '\n') (left : List Char) :
    dropLineComments (left ++ after) = dropLineComments left ++ after := by
  cases after with
  | nil => simp
  | cons c rest =>
    obtain rfl : c = '\n' := starts c rfl
    have below : '/' ∉ rest := fun inside => slashless (List.mem_cons_of_mem _ inside)
    rw [dropLineComments_append_mark, dropLineComments_eq_self below]

/-- What closes a block comment is kept unless a line comment opens before it on its line. -/
theorem dropLineComments_closing (body : List Char) :
    dropLineComments (body ++ ['*', '/']) =
      dropLineComments body ++ if ['/', '/'] <:+: afterLast '\n' body then [] else ['*', '/'] := by
  obtain ⟨unbroken, place⟩ := afterLast_cases '\n' body
  have last : dropLineComments (afterLast '\n' body ++ ['*', '/']) =
      dropLineComments (afterLast '\n' body) ++
        if ['/', '/'] <:+: afterLast '\n' body then [] else ['*', '/'] := by
    rw [dropLineComments_eq_cutLineComment unbroken,
      dropLineComments_eq_cutLineComment (by simpa using unbroken)]
    split
    · next opens => rw [cutLineComment_append_of_opening opens, List.append_nil]
    · next closed =>
      have apart := isChain_apart.mpr closed
      rw [cutLineComment_append apart (by simp), cutLineComment_eq_self apart]
      rfl
  rcases place with whole | ⟨before, whole⟩
  · rw [← whole] at last ⊢
    exact last
  · -- the lines before the last one are cut alike on both sides
    generalize afterLast '\n' body = line at last whole ⊢
    subst whole
    rw [List.append_assoc, List.cons_append, dropLineComments_append_mark,
      dropLineComments_append_mark, last, List.append_assoc, List.cons_append]

/-! ### Block comments -/

theorem afterBlock?_cons (other : c = '*' → rest.head? ≠ some '/') :
    afterBlock? (c :: rest) = afterBlock? rest := by
  rw [afterBlock?]
  rintro more rfl rfl
  exact other rfl rfl

theorem afterBlock?_append (apart : body.IsChain (Apart '*' '/')) (rest : List Char) :
    afterBlock? (body ++ '*' :: '/' :: rest) = some rest := by
  induction body with
  | nil => rfl
  | cons c body ih =>
    rw [List.cons_append, afterBlock?_cons, ih apart.tail]
    rintro rfl
    exact head?_append_ne apart (by simp)

theorem afterBlock?_eq_none (apart : text.IsChain (Apart '*' '/')) : afterBlock? text = none := by
  induction text with
  | nil => rfl
  | cons c rest ih =>
    rw [afterBlock?_cons, ih apart.tail]
    rintro rfl
    rw [← List.append_nil rest]
    exact head?_append_ne apart (by simp)

theorem dropBlockComments_append (slashless : '/' ∉ left) (right : List Char) :
    dropBlockComments (left ++ right) = left ++ dropBlockComments right := by
  induction left with
  | nil => rfl
  | cons c left ih =>
    obtain ⟨other, absent⟩ : '/' ≠ c ∧ '/' ∉ left := by simpa using slashless
    rw [List.cons_append, dropBlockComments, ih absent, List.cons_append]
    rintro more rfl
    exact absurd rfl other

theorem dropBlockComments_of_closed (closed : afterBlock? rest = some after) :
    dropBlockComments ('/' :: '*' :: rest) = dropBlockComments after := by
  rw [dropBlockComments]
  split <;> simp_all

theorem dropBlockComments_of_open (never : afterBlock? rest = none) :
    dropBlockComments ('/' :: '*' :: rest) = '/' :: '*' :: rest := by
  rw [dropBlockComments]
  split <;> simp_all

theorem cutLineComment_begins (line : List Char) : cutLineComment line <+: line := by
  fun_induction cutLineComment line with
  | case1 => exact List.prefix_rfl
  | case2 rest => exact List.nil_prefix
  | case3 c rest _ ih => exact (List.prefix_cons_inj c).mpr ih

/-- Cutting lines does not make the end of a block comment. -/
theorem isChain_dropLineComments (apart : text.IsChain (Apart '*' '/')) :
    (dropLineComments text).IsChain (Apart '*' '/') := by
  apply isChain_joinWith
  · intro c _
    decide
  · intro c same
    cases same
  · intro piece member
    obtain ⟨line, part, rfl⟩ := List.mem_map.mp member
    have inside : cutLineComment line <:+: text :=
      (cutLineComment_begins line).isInfix.trans (infix_of_mem_cutAt part)
    exact isChain_apart.mpr fun ended => isChain_apart.mp apart (ended.trans inside)

/-- What cleaning leaves of a block comment. -/
def remnant (body : List Char) : List Char :=
  if ['/', '/'] <:+: afterLast '\n' body then '/' :: '*' :: dropLineComments body else []

theorem withoutComments_eq_self (slashless : '/' ∉ text) : withoutComments text = text := by
  rw [withoutComments, dropLineComments_eq_self slashless,
    dropBlockComments_eq_self (isChain_harmless_of_not_mem slashless)]

theorem withoutComments_insertLine (slashless : '/' ∉ text) (closed : ¬ ['*', '/'] <:+: body)
    (boundary : Nat) :
    withoutComments (insertLine boundary (blockComment body) text) =
      insertLine boundary (remnant body) text := by
  obtain ⟨before, after, placed, known, starts⟩ := exists_insertLine_eq boundary text
  obtain ⟨above, below⟩ : '/' ∉ before ∧ '/' ∉ after := by
    rw [← not_or, ← List.mem_append]
    intro member
    rcases known '/' member with fresh | old
    · cases fresh
    · exact slashless old
  have apart := isChain_apart.mpr closed
  have cut : dropLineComments (blockComment body) = '/' :: '*' :: (dropLineComments body ++
      if ['/', '/'] <:+: afterLast '\n' body then [] else ['*', '/']) := by
    rw [blockComment, dropLineComments_cons (by simp), dropLineComments_cons (by simp),
      dropLineComments_closing]
  rw [placed, placed, withoutComments, dropLineComments_append above,
    dropLineComments_append_lines below starts, dropBlockComments_append above, cut, remnant]
  congr 1
  split
  · -- nothing closes the comment, neither in what is left of it nor in the lines below
    have unclosed : (dropLineComments body ++ after).IsChain (Apart '*' '/') := by
      refine List.isChain_append.mpr ⟨isChain_dropLineComments apart, ?_, ?_⟩
      · exact isChain_apart.mpr fun inside => below (inside.subset (by simp))
      · rintro _ _ _ first _ rfl
        exact below (List.mem_of_head? first)
    rw [List.append_nil]
    exact dropBlockComments_of_open (afterBlock?_eq_none unclosed)
  · -- the comment is closed where it was, and the lines below hold no other
    have ended := afterBlock?_append (isChain_dropLineComments apart) after
    have kept := dropBlockComments_eq_self (isChain_harmless_of_not_mem below)
    rw [List.cons_append, List.cons_append, List.append_assoc]
    exact (dropBlockComments_of_closed ended).trans kept

/-! ### What is read -/

theorem cleanLines_eq (text : List Char) :
    cleanLines text = ((cutAt '\n' (withoutComments text)).map trim).filter isKept := rfl

/-- An empty line is not read. -/
theorem filter_isKept_insertLine (boundary : Nat) (text : List Char) :
    ((cutAt '\n' (insertLine boundary [] text)).map trim).filter isKept =
      ((cutAt '\n' text).map trim).filter isKept := by
  have nothing : (([[]] : List (List Char)).map trim).filter isKept = [] := by decide
  have lines := List.take_append_drop boundary (cutAt '\n' text)
  rw [cutAt_insertLine, cutAt, List.map_append, List.map_append, List.filter_append,
    List.filter_append, nothing, List.append_nil, ← List.filter_append, ← List.map_append, lines]

theorem mem_of_mem_trim (member : c ∈ trim text) : c ∈ text := by
  have start := List.mem_reverse.mp ((List.dropWhile_sublist _).subset (List.mem_reverse.mp member))
  exact (List.dropWhile_sublist _).subset start

theorem mem_of_mem_clean (member : c ∈ clean text) : c = '\n' ∨ c ∈ withoutComments text := by
  rcases mem_joinWith member with fresh | ⟨piece, kept, inside⟩
  · exact .inl fresh
  · rw [cleanLines_eq] at kept
    obtain ⟨line, part, rfl⟩ := List.mem_map.mp (List.mem_filter.mp kept).1
    exact .inr ((infix_of_mem_cutAt part).subset (mem_of_mem_trim inside))

theorem exists_trim_cons (solid : isBlank c = false) (rest : List Char) :
    ∃ more, trim (c :: rest) = c :: more := by
  unfold trim trimEnd trimStart
  rw [List.dropWhile_cons_of_neg (by simp [solid]), List.reverse_cons, List.dropWhile_append]
  split
  · exact ⟨[], by simp [solid]⟩
  · exact ⟨_, by rw [List.reverse_append]; rfl⟩

theorem mem_clean_of_line (solid : isBlank c = false) (sign : c ≠ '#')
    (part : c :: rest ∈ cutAt '\n' (withoutComments text)) : c ∈ clean text := by
  obtain ⟨more, trimmed⟩ := exists_trim_cons solid rest
  have kept : trim (c :: rest) ∈ cleanLines text := by
    rw [cleanLines_eq]
    refine List.mem_filter.mpr ⟨List.mem_map_of_mem part, ?_⟩
    simp [trimmed, isKept, sign]
  apply (infix_joinWith kept).subset
  rw [trimmed]
  exact List.mem_cons_self

end Source

namespace Loader

open Text Source

/-- Only the cleaned text matters. -/
theorem load_congr {left right : String} (same : clean left.toList = clean right.toList)
    (loader : Loader) (start : Option String) :
    loader.load left start = loader.load right start := by
  have rules : Source.rules loader.options left = Source.rules loader.options right := by
    rw [Source.rules, Source.rules, same]
  rw [load, load, Grammar.ofText, Grammar.ofText, rules]

/-- A block comment on lines of its own is not read, whatever stands in it, if no line comment opens
on its last line. Otherwise its lines are read, each up to the line comment that opens there. -/
theorem load_commented (text body : String) (boundary : Nat) (slashless : '/' ∉ text.toList)
    (closed : ¬ ['*', '/'] <:+: body.toList) :
    let commented := String.ofList (insertLine boundary (blockComment body.toList) text.toList)
    (¬ ['/', '/'] <:+: afterLast '\n' body.toList →
        ∀ (loader : Loader) start, loader.load commented start = loader.load text start) ∧
      (['/', '/'] <:+: afterLast '\n' body.toList →
        withoutComments commented.toList =
            insertLine boundary ('/' :: '*' :: dropLineComments body.toList) text.toList ∧
          clean commented.toList ≠ clean text.toList) := by
  intro commented
  have left : withoutComments commented.toList =
      insertLine boundary (remnant body.toList) text.toList := by
    rw [String.toList_ofList, withoutComments_insertLine slashless closed]
  have plain := withoutComments_eq_self slashless
  constructor
  · intro silent
    apply load_congr
    rw [clean, clean, cleanLines_eq, cleanLines_eq, left, plain, remnant, if_neg silent,
      filter_isKept_insertLine]
  · intro opens
    rw [remnant, if_pos opens] at left
    refine ⟨left, fun same => ?_⟩
    -- the opening of the comment is read, and there is no such character in the text
    obtain ⟨piece, pieces, cut⟩ :=
      List.exists_cons_of_ne_nil (cutAt_ne_nil '\n' ('*' :: dropLineComments body.toList))
    have first : cutAt '\n' ('/' :: '*' :: dropLineComments body.toList) =
        ('/' :: piece) :: pieces := by
      rw [cutAt, if_neg (by decide), cut]
    have part : '/' :: piece ∈ cutAt '\n' (withoutComments commented.toList) := by
      rw [left, cutAt_insertLine, first]
      simp
    have read := mem_clean_of_line (by decide) (by decide) part
    rw [same] at read
    rcases mem_of_mem_clean read with fresh | old
    · cases fresh
    · exact slashless (plain ▸ old)

/-- A comment of three lines that has signs of all comments in it, between two lines of a rule. -/
theorem load_commented_lines :
    '/' ∉ "S -> a\n | b".toList ∧ ¬ ['*', '/'] <:+: "* // S -> c\n\n# /* *".toList ∧
      ¬ ['/', '/'] <:+: afterLast '\n' "* // S -> c\n\n# /* *".toList ∧
      ∀ (loader : Loader) start,
        loader.load "S -> a\n/** // S -> c\n\n# /* **/\n | b" start =
          loader.load "S -> a\n | b" start := by
  have slashless : '/' ∉ "S -> a\n | b".toList := by decide
  have closed : ¬ ['*', '/'] <:+: "* // S -> c\n\n# /* *".toList := by decide +kernel
  have silent : ¬ ['/', '/'] <:+: afterLast '\n' "* // S -> c\n\n# /* *".toList := by
    decide +kernel
  have written : String.ofList (insertLine 1 (blockComment "* // S -> c\n\n# /* *".toList)
      "S -> a\n | b".toList) = "S -> a\n/** // S -> c\n\n# /* **/\n | b" := by decide +kernel
  have loaded := (load_commented "S -> a\n | b" "* // S -> c\n\n# /* *" 1 slashless closed).1 silent
  rw [written] at loaded
  exact ⟨slashless, closed, silent, loaded⟩

/-- A text that is cleaned into one statement with one alternative is one rule. -/
theorem rules_of_alternative {options : GrammarOptions} {text : String} {names : List String}
    {lines statement name right : List Char} (cleaned : clean text.toList = lines)
    (grouped : statements lines = .ok [statement]) (head : readHead? statement = some (name, right))
    (trimmed : trim right = right) (single : '|' ∉ right)
    (read : alternativeNames options right = names) :
    Source.rules options text = .ok [⟨String.ofList name, names⟩] := by
  have rule : statementRules options statement = [⟨String.ofList name, names⟩] := by
    simp [statementRules, head, trimmed, cutAt_eq_singleton single, read]
  rw [Source.rules, cleaned, grouped]
  simp [rule]

/-- Two slashes inside a block comment of one line make its opening a symbol of a rule. -/
theorem line_comment_opens_block :
    ¬ ∀ (text body : String) (boundary : Nat), '/' ∉ text.toList → ¬ ['*', '/'] <:+: body.toList →
        boundary ≤ (cutAt '\n' text.toList).length → ∀ (loader : Loader) start,
        loader.load (String.ofList (insertLine boundary (blockComment body.toList) text.toList))
          start = loader.load text start := by
  intro claimed
  have slashless : '/' ∉ "S -> a".toList := by decide
  have closed : ¬ ['*', '/'] <:+: " // ".toList := by decide +kernel
  have same := claimed "S -> a" " // " 1 slashless closed (by decide) { options := {} } none
  have leaked : Source.rules {} (String.ofList (insertLine 1 (blockComment " // ".toList)
      "S -> a".toList)) = .ok [⟨"S", ["a", "/*"]⟩] := by
    have left : insertLine 1 (remnant " // ".toList) "S -> a".toList = "S -> a\n/* ".toList := by
      decide +kernel
    have words : readWords "a /*".toList = [.bare ['a'], .bare ['/', '*']] :=
      @readWords_joinWith [['a'], ['/', '*']] (by decide)
    refine @rules_of_alternative _ _ _ "S -> a\n/*".toList "S -> a /*".toList ['S'] "a /*".toList
      ?_ (by decide +kernel) (by decide +kernel) (by decide) (by decide) ?_
    · rw [String.toList_ofList, clean, cleanLines_eq,
        withoutComments_insertLine slashless closed, left]
      decide +kernel
    · rw [alternativeNames, if_neg (by decide +kernel), symbolNames, if_neg (by decide), words]
      decide +kernel
  have meant : Source.rules {} "S -> a" = .ok [⟨"S", ["a"]⟩] := by
    have words : readWords ['a'] = [.bare ['a']] := @readWords_joinWith [['a']] (by decide)
    refine @rules_of_alternative _ _ _ "S -> a".toList "S -> a".toList ['S'] ['a']
      ?_ (by decide +kernel) (by decide +kernel) (by decide) (by decide) ?_
    · rw [clean, cleanLines_eq, withoutComments_eq_self slashless]
      decide +kernel
    · rw [alternativeNames, if_neg (by decide +kernel), symbolNames, if_neg (by decide), words]
      decide +kernel
  have rules := congrArg (fun loaded => loaded.2.rules) same
  simp only [load, leaked, meant] at rules
  exact absurd rules (by decide)

end Loader

end Predictive
