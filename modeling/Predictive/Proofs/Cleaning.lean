import Predictive.Proofs.IgnoredComments

/-! Cleaned texts. Taking a comment out joins what stands around it, but line comments go first, so
neither the character before a block comment nor the one behind it is a slash, and no new comment is
made. What is left of the lines needs no second cleaning. -/

set_option autoImplicit false

namespace Predictive

namespace Text

variable {c : Char} {text before after : List Char}

/-! ### Blanks at the ends -/

theorem trim_blanks_append (blank : ∀ c ∈ before, isBlank c = true) (text : List Char) :
    trim (before ++ text) = trim text := by
  unfold trim trimStart
  rw [List.dropWhile_append_of_pos blank]

theorem trim_append_blanks (blank : ∀ c ∈ after, isBlank c = true) (text : List Char) :
    trim (text ++ after) = trim text := by
  have nothing : after.dropWhile isBlank = [] := List.dropWhile_eq_nil_iff.mpr blank
  unfold trim trimStart trimEnd
  rw [List.dropWhile_append]
  split
  · next empty => rw [nothing, List.isEmpty_iff.mp empty]
  · rw [List.reverse_append, List.dropWhile_append_of_pos (by simpa using blank)]

/-- A text is what is left of it when it is trimmed, between blanks. -/
theorem exists_blanks_around_trim (text : List Char) :
    ∃ before after, (∀ c ∈ before, isBlank c = true) ∧ (∀ c ∈ after, isBlank c = true) ∧
      text = before ++ (trim text ++ after) := by
  refine ⟨text.takeWhile isBlank, ((trimStart text).reverse.takeWhile isBlank).reverse,
    fun _ => List.mem_takeWhile_imp, fun _ member => ?_, ?_⟩
  · exact List.mem_takeWhile_imp (List.mem_reverse.mp member)
  · have ending : trim text ++ ((trimStart text).reverse.takeWhile isBlank).reverse =
        trimStart text := by
      rw [trim, trimEnd, ← List.reverse_append, List.takeWhile_append_dropWhile,
        List.reverse_reverse]
    rw [ending]
    exact List.takeWhile_append_dropWhile.symm

theorem isInfix_trim (text : List Char) : trim text <:+: text := by
  obtain ⟨before, after, _, _, whole⟩ := exists_blanks_around_trim text
  exact ⟨before, after, by rw [List.append_assoc]; exact whole.symm⟩

theorem isPrefix_trimEnd (text : List Char) : trimEnd text <+: text := by
  have suffix := List.dropWhile_suffix isBlank (l := text.reverse)
  rwa [← List.reverse_prefix, List.reverse_reverse] at suffix

theorem eq_false_of_head?_dropWhile {test : Char → Bool}
    (first : c ∈ (text.dropWhile test).head?) : test c = false := by
  have stopped := List.head?_dropWhile_not test text
  rwa [Option.mem_def.mp first] at stopped

theorem isBlank_of_head?_trim (first : c ∈ (trim text).head?) : isBlank c = false := by
  obtain ⟨after, whole⟩ := isPrefix_trimEnd (trimStart text)
  obtain ⟨rest, same⟩ := List.head?_eq_some_iff.mp first
  rw [trim] at same
  refine @eq_false_of_head?_dropWhile _ text _ ?_
  rw [← trimStart, ← whole, same]
  rfl

theorem isBlank_of_getLast?_trim (last : c ∈ (trim text).getLast?) : isBlank c = false := by
  rw [trim, trimEnd, List.getLast?_reverse] at last
  exact eq_false_of_head?_dropWhile last

@[simp] theorem trim_trim (text : List Char) : trim (trim text) = trim text :=
  trim_eq_self (fun _ => isBlank_of_head?_trim) fun _ => isBlank_of_getLast?_trim

/-! ### Pieces -/

/-- Where two texts meet, the last piece of the one and the first of the other are one piece. -/
theorem exists_cutAt_append (mark : Char) (left right : List Char) :
    ∃ above last first below, cutAt mark left = above ++ [last] ∧
      cutAt mark right = first :: below ∧
      cutAt mark (left ++ right) = above ++ (last ++ first) :: below := by
  obtain ⟨first, below, cut⟩ := List.exists_cons_of_ne_nil (cutAt_ne_nil mark right)
  induction left with
  | nil => exact ⟨[], [], first, below, rfl, cut, cut⟩
  | cons c left ih =>
    obtain ⟨above, last, _, _, ends, begins, whole⟩ := ih
    obtain ⟨rfl, rfl⟩ := List.cons.inj (cut.symm.trans begins)
    by_cases same : c = mark
    · exact ⟨[] :: above, last, first, below, by simp [cutAt, same, ends], cut,
        by simp [cutAt, same, whole]⟩
    · cases above with
      | nil => exact ⟨[], c :: last, first, below, by simp [cutAt, same, ends], cut,
          by simp [cutAt, same, whole]⟩
      | cons piece above => exact ⟨(c :: piece) :: above, last, first, below,
          by simp [cutAt, same, ends], cut, by simp [cutAt, same, whole]⟩

section
variable {mark : Char} (solid : isBlank mark = false)
include solid

theorem cutAt_blanks (blank : ∀ c ∈ text, isBlank c = true) : cutAt mark text = [text] := by
  refine cutAt_eq_singleton fun inside => ?_
  simp [blank mark inside] at solid

theorem map_trim_cutAt_append_blanks (blank : ∀ c ∈ after, isBlank c = true) (text : List Char) :
    (cutAt mark (text ++ after)).map trim = (cutAt mark text).map trim := by
  obtain ⟨above, last, first, below, ends, begins, whole⟩ := exists_cutAt_append mark text after
  obtain ⟨rfl, rfl⟩ := List.cons.inj (begins.symm.trans (cutAt_blanks solid blank))
  rw [whole, ends, List.map_append, List.map_append, List.map_singleton, List.map_singleton,
    trim_append_blanks blank]

theorem map_trim_cutAt_blanks_append (blank : ∀ c ∈ before, isBlank c = true) (text : List Char) :
    (cutAt mark (before ++ text)).map trim = (cutAt mark text).map trim := by
  obtain ⟨above, last, first, below, ends, begins, whole⟩ := exists_cutAt_append mark before text
  obtain ⟨rfl, rfl⟩ : above = [] ∧ last = before := by
    simpa using List.append_eq_singleton_iff.mp (ends.symm.trans (cutAt_blanks solid blank))
  rw [whole, begins, List.nil_append, List.map_cons, List.map_cons, trim_blanks_append blank]

/-- Blanks around a text do not matter for its trimmed pieces. -/
theorem map_trim_cutAt_trim (text : List Char) :
    (cutAt mark (trim text)).map trim = (cutAt mark text).map trim := by
  obtain ⟨before, after, blanks, later, whole⟩ := exists_blanks_around_trim text
  calc (cutAt mark (trim text)).map trim
      = (cutAt mark (trim text ++ after)).map trim :=
        (map_trim_cutAt_append_blanks solid later _).symm
    _ = (cutAt mark (before ++ (trim text ++ after))).map trim :=
        (map_trim_cutAt_blanks_append solid blanks _).symm
    _ = (cutAt mark text).map trim := by rw [← whole]

end

end Text

namespace Source

open Text

variable {c left right mark : Char} {text rest after line : List Char}
  {lines pieces : List (List Char)}

/-! ### No line comment is left -/

theorem isChain_cutLineComment (line : List Char) :
    (cutLineComment line).IsChain (Apart '/' '/') := by
  fun_induction cutLineComment line with
  | case1 => exact .nil
  | case2 rest => exact .nil
  | case3 c rest early ih =>
    refine List.isChain_cons.mpr ⟨?_, ih⟩
    rintro _ first rfl rfl
    obtain ⟨more, cut⟩ := List.head?_eq_some_iff.mp first
    obtain ⟨behind, whole⟩ := cutLineComment_begins rest
    exact early (more ++ behind) rfl (by rw [← whole, cut]; rfl)

theorem isChain_slashes_joinWith (each : ∀ line ∈ lines, line.IsChain (Apart '/' '/')) :
    (joinWith '\n' lines).IsChain (Apart '/' '/') :=
  isChain_joinWith (fun _ _ => by decide) (fun _ same => by cases same) each

theorem isChain_slashes_dropLineComments (text : List Char) :
    (dropLineComments text).IsChain (Apart '/' '/') := by
  refine isChain_slashes_joinWith fun piece member => ?_
  obtain ⟨line, _, rfl⟩ := List.mem_map.mp member
  exact isChain_cutLineComment line

theorem dropLineComments_of_isChain (apart : text.IsChain (Apart '/' '/')) :
    dropLineComments text = text := by
  have whole : ∀ line ∈ cutAt '\n' text, cutLineComment line = line := fun line part =>
    cutLineComment_eq_self (isChain_apart.mpr fun opens =>
      isChain_apart.mp apart (opens.trans (infix_of_mem_cutAt part)))
  rw [dropLineComments, List.map_congr_left whole, List.map_id', joinWith_cutAt]

/-! ### No block comment is left -/

/-- A text in which no block comment is closed. -/
def Unclosed (text : List Char) : Prop :=
  ∀ body, ¬ blockComment body <:+: text

theorem Unclosed.of_isInfix (unclosed : Unclosed text) (inside : line <:+: text) : Unclosed line :=
  fun body comment => unclosed body (comment.trans inside)

theorem unclosed_nil : Unclosed [] := by
  intro body comment
  simp [blockComment] at comment

theorem unclosed_cons : Unclosed (c :: rest) ↔
    Unclosed rest ∧ ∀ after, c :: rest = '/' :: '*' :: after → ¬ ['*', '/'] <:+: after := by
  constructor
  · intro unclosed
    refine ⟨unclosed.of_isInfix (List.suffix_cons c rest).isInfix, ?_⟩
    rintro after opens ⟨body, behind, rfl⟩
    exact unclosed body ⟨[], behind, by simp [opens, blockComment]⟩
  · rintro ⟨later, here⟩ body comment
    rcases List.infix_cons_iff.mp comment with ⟨behind, opens⟩ | inside
    · exact here (body ++ ['*', '/'] ++ behind) (by simp [← opens, blockComment])
        ⟨body, behind, rfl⟩
    · exact later body inside

theorem unclosed_cons_of_ne (other : c ≠ '/') : Unclosed (c :: rest) ↔ Unclosed rest := by
  rw [unclosed_cons, and_iff_left_iff_imp]
  rintro _ after opens
  exact absurd (List.cons.inj opens).1 other

theorem dropBlockComments_cons_of_ne (other : c ≠ '/') :
    dropBlockComments (c :: rest) = c :: dropBlockComments rest :=
  @dropBlockComments_append [c] (by simpa using other.symm) rest

theorem afterBlock?_eq_none_iff : afterBlock? text = none ↔ ¬ ['*', '/'] <:+: text := by
  refine ⟨fun never => ?_, fun absent => afterBlock?_eq_none (isChain_apart.mpr absent)⟩
  fun_induction afterBlock? text with
  | case1 => simp
  | case2 rest => cases never
  | case3 c rest early ih =>
    intro ends
    rcases List.infix_cons_iff.mp ends with ⟨behind, opens⟩ | inside
    · obtain ⟨rfl, rfl⟩ := List.cons.inj opens
      exact early behind rfl rfl
    · exact ih never inside

theorem suffix_of_afterBlock (closed : afterBlock? text = some rest) : rest <:+ text := by
  fun_induction afterBlock? text with
  | case1 => cases closed
  | case2 after =>
    cases closed
    exact ⟨['*', '/'], rfl⟩
  | case3 first others _ ih => exact (ih closed).trans (List.suffix_cons first others)

/-- Where nothing closes a block comment, none is closed. -/
theorem unclosed_of_absent (absent : ¬ ['*', '/'] <:+: text) : Unclosed text := by
  rintro body comment
  exact absent (List.IsInfix.trans ⟨'/' :: '*' :: body, [], by simp [blockComment]⟩ comment)

theorem dropBlockComments_of_unclosed (unclosed : Unclosed text) :
    dropBlockComments text = text := by
  fun_induction dropBlockComments text with
  | case1 => rfl
  | case2 rest after closed =>
    have never := afterBlock?_eq_none_iff.mpr ((unclosed_cons.mp unclosed).2 rest rfl)
    rw [never] at closed
    cases closed
  | case3 rest => rfl
  | case4 c rest _ ih => rw [ih (unclosed_cons.mp unclosed).1]

/-- Behind a character that is no slash, nothing is joined to it. -/
theorem head?_dropBlockComments (other : rest.head? ≠ some '/') :
    (dropBlockComments rest).head? = rest.head? := by
  cases rest with
  | nil => rw [dropBlockComments]
  | cons c rest =>
    rw [dropBlockComments_cons_of_ne (by simpa using other)]
    rfl

/-- A slash is not first in what follows a slash. -/
theorem head?_ne_of_isChain (apart : (c :: rest).IsChain (Apart '/' '/')) (slash : c = '/') :
    rest.head? ≠ some '/' := by
  intro first
  exact (List.isChain_cons.mp apart).1 '/' first slash rfl

/-- No two characters that are joined around a block comment are slashes. -/
theorem isChain_dropBlockComments (apart : text.IsChain (Apart '/' '/')) :
    (dropBlockComments text).IsChain (Apart '/' '/') := by
  fun_induction dropBlockComments text with
  | case1 => exact .nil
  | case2 rest after closed ih =>
    exact ih (apart.tail.tail.suffix (suffix_of_afterBlock closed))
  | case3 rest => exact apart
  | case4 c rest _ ih =>
    refine List.isChain_cons.mpr ⟨?_, ih apart.tail⟩
    rintro _ first slash rfl
    have other := head?_ne_of_isChain apart slash
    rw [head?_dropBlockComments other] at first
    exact other first

/-- A block comment that is taken out leaves no other, as nothing is joined to a slash. -/
theorem unclosed_dropBlockComments (apart : text.IsChain (Apart '/' '/')) :
    Unclosed (dropBlockComments text) := by
  fun_induction dropBlockComments text with
  | case1 => exact unclosed_nil
  | case2 rest after closed ih =>
    exact ih (apart.tail.tail.suffix (suffix_of_afterBlock closed))
  | case3 rest never =>
    have absent := afterBlock?_eq_none_iff.mp never
    refine unclosed_cons.mpr ⟨?_, fun after opens => ?_⟩
    · exact (unclosed_cons_of_ne (by decide)).mpr (unclosed_of_absent absent)
    · obtain rfl : rest = after := (List.cons.inj (List.cons.inj opens).2).2
      exact absent
  | case4 c rest early ih =>
    refine unclosed_cons.mpr ⟨ih apart.tail, fun after opens => ?_⟩
    obtain ⟨slash, star⟩ := List.cons.inj opens
    have other := head?_ne_of_isChain apart slash
    have first : rest.head? = some '*' := by
      rw [← head?_dropBlockComments other, star]
      rfl
    obtain ⟨more, rfl⟩ := List.head?_eq_some_iff.mp first
    exact (early more slash rfl).elim

/-! ### Lines -/

/-- A text of two characters is in joined lines where it is in one of them. -/
theorem infix_joinWith_iff (first : left ≠ mark) (second : right ≠ mark) :
    [left, right] <:+: joinWith mark lines ↔ ∃ line ∈ lines, [left, right] <:+: line := by
  constructor
  · contrapose!
    intro absent
    rw [← isChain_apart]
    refine isChain_joinWith (fun _ _ => second.symm) (fun _ same => absurd same.symm first) ?_
    exact fun line member => isChain_apart.mpr (absent line member)
  · rintro ⟨line, member, inside⟩
    exact inside.trans (infix_joinWith member)

/-- A block comment that is closed on other lines has its opening on one line and its end on a
later one. -/
theorem unclosed_append_mark {below : List Char} : Unclosed (line ++ '\n' :: below) ↔
    Unclosed line ∧ Unclosed below ∧ (['/', '*'] <:+: line → ¬ ['*', '/'] <:+: below) := by
  induction line with
  | nil => simp [unclosed_cons_of_ne, unclosed_nil]
  | cons c line ih =>
    rw [List.cons_append, unclosed_cons, unclosed_cons, ih, List.infix_cons_iff]
    cases line with
    | nil => simp
    | cons next more =>
      have parts : ['*', '/'] <:+: more ++ '\n' :: below ↔
          ['*', '/'] <:+: more ∨ ['*', '/'] <:+: below := by
        have joined := @infix_joinWith_iff '*' '/' '\n' [more, below] (by decide) (by decide)
        simpa [joinWith] using joined
      by_cases opens : c = '/' ∧ next = '*'
      · obtain ⟨rfl, rfl⟩ := opens
        simp only [List.cons_append, List.cons.injEq, true_and, forall_eq', parts, not_or,
          List.cons_prefix_cons, List.nil_prefix, and_self, true_or, forall_const]
        grind
      · simp only [List.cons_append, List.cons.injEq, and_imp, forall_apply_eq_imp_iff₂,
          List.cons_prefix_cons, List.nil_prefix, and_true]
        grind

theorem unclosed_joinWith : Unclosed (joinWith '\n' lines) ↔
    (∀ line ∈ lines, Unclosed line) ∧
      lines.Pairwise fun earlier later => ['/', '*'] <:+: earlier → ¬ ['*', '/'] <:+: later := by
  induction lines with
  | nil => simpa [joinWith] using unclosed_nil
  | cons line rest ih =>
    cases rest with
    | nil => simp [joinWith]
    | cons next more =>
      have later : ¬ ['*', '/'] <:+: joinWith '\n' (next :: more) ↔
          ∀ line ∈ next :: more, ¬ ['*', '/'] <:+: line := by
        rw [infix_joinWith_iff (by decide) (by decide)]
        push Not
        rfl
      have across : (∀ lower ∈ next :: more, ['/', '*'] <:+: line → ¬ ['*', '/'] <:+: lower) ↔
          (['/', '*'] <:+: line → ∀ lower ∈ next :: more, ¬ ['*', '/'] <:+: lower) :=
        ⟨fun apart opens lower member => apart lower member opens,
          fun apart lower member opens => apart opens lower member⟩
      rw [joinWith, unclosed_append_mark, ih, later, List.forall_mem_cons (a := line),
        List.pairwise_cons (a := line), across]
      grind

/-! ### Clean texts -/

/-- A text without comments and empty lines. The lines of a text that is not empty begin with a
character that is neither a blank nor the sign of a comment line, and do not end with a blank. -/
structure IsClean (text : List Char) : Prop where
  lineComments : ¬ ['/', '/'] <:+: text
  blockComments : Unclosed text
  lines : text = [] ∨ ∀ line ∈ cutAt '\n' text, line ≠ [] ∧
    (∀ c ∈ line.head?, isBlank c = false ∧ c ≠ '#') ∧ ∀ c ∈ line.getLast?, isBlank c = false

theorem mem_cleanLines : line ∈ cleanLines text ↔
    (∃ piece ∈ cutAt '\n' (withoutComments text), trim piece = line) ∧ isKept line = true := by
  rw [cleanLines_eq, List.mem_filter, List.mem_map]

theorem infix_of_mem_cleanLines (member : line ∈ cleanLines text) :
    line <:+: withoutComments text := by
  obtain ⟨⟨piece, part, rfl⟩, _⟩ := mem_cleanLines.mp member
  exact (isInfix_trim piece).trans (infix_of_mem_cutAt part)

theorem unbroken_of_mem_cleanLines (member : line ∈ cleanLines text) : '\n' ∉ line := by
  obtain ⟨⟨piece, part, rfl⟩, _⟩ := mem_cleanLines.mp member
  exact fun inside => not_mem_of_mem_cutAt part ((isInfix_trim piece).subset inside)

theorem isChain_withoutComments (text : List Char) :
    (withoutComments text).IsChain (Apart '/' '/') :=
  isChain_dropBlockComments (isChain_slashes_dropLineComments text)

theorem unclosed_withoutComments (text : List Char) : Unclosed (withoutComments text) :=
  unclosed_dropBlockComments (isChain_slashes_dropLineComments text)

/-- Trimming lines and leaving lines out brings no opening and no end of a comment together. -/
theorem unclosed_clean (text : List Char) : Unclosed (clean text) := by
  have whole := unclosed_withoutComments text
  rw [← joinWith_cutAt '\n' (withoutComments text), unclosed_joinWith] at whole
  refine unclosed_joinWith.mpr ⟨fun line member => ?_, ?_⟩
  · exact (unclosed_withoutComments text).of_isInfix (infix_of_mem_cleanLines member)
  · rw [cleanLines_eq]
    refine (whole.2.map trim fun earlier later apart opens ends => ?_).filter isKept
    exact apart (opens.trans (isInfix_trim earlier)) (ends.trans (isInfix_trim later))

theorem cutAt_clean (some : cleanLines text ≠ []) : cutAt '\n' (clean text) = cleanLines text :=
  cutAt_joinWith some fun _ => unbroken_of_mem_cleanLines

theorem isClean_clean (text : List Char) : IsClean (clean text) where
  lineComments := by
    refine isChain_apart.mp (isChain_slashes_joinWith fun line member => ?_)
    exact List.IsChain.infix (isChain_withoutComments text) (infix_of_mem_cleanLines member)
  blockComments := unclosed_clean text
  lines := by
    by_cases some : cleanLines text = []
    · exact .inl (by rw [clean, some, joinWith])
    · refine .inr fun line member => ?_
      rw [cutAt_clean some] at member
      obtain ⟨⟨piece, _, rfl⟩, kept⟩ := mem_cleanLines.mp member
      obtain ⟨filled, sign⟩ : trim piece ≠ [] ∧ (trim piece).head? ≠ Option.some '#' := by
        simpa [isKept] using kept
      refine ⟨filled, fun c first => ⟨isBlank_of_head?_trim first, ?_⟩,
        fun c => isBlank_of_getLast?_trim⟩
      rintro rfl
      exact sign first

theorem clean_of_isClean (settled : IsClean text) : clean text = text := by
  rcases settled.lines with rfl | lines
  · rw [clean, cleanLines_eq, withoutComments_eq_self (by simp)]
    rfl
  · have trimmed : ∀ line ∈ cutAt '\n' text, trim line = line := fun line member =>
      trim_eq_self (fun c first => ((lines line member).2.1 c first).1) (lines line member).2.2
    have kept : ∀ line ∈ cutAt '\n' text, isKept line = true := by
      intro line member
      obtain ⟨filled, first, _⟩ := lines line member
      have sign : line.head? ≠ some '#' := fun same => (first '#' same).2 rfl
      simp [isKept, filled, sign]
    rw [clean, cleanLines, dropLineComments_of_isChain (isChain_apart.mpr settled.lineComments),
      dropBlockComments_of_unclosed settled.blockComments, List.map_congr_left trimmed,
      List.map_id', List.filter_eq_self.mpr kept, joinWith_cutAt]

/-- One cleaning is enough: a cleaned text has no comment and no empty line, and it stays as it is
when it is cleaned again. The clean texts are just those that cleaning leaves alone. -/
theorem clean_settles (text : List Char) :
    clean (clean text) = clean text ∧ IsClean (clean text) ∧ (clean text = text ↔ IsClean text) := by
  refine ⟨clean_of_isClean (isClean_clean text), isClean_clean text, ?_, clean_of_isClean⟩
  intro same
  rw [← same]
  exact isClean_clean text

end Source

end Predictive
