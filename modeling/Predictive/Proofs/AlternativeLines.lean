import Predictive.Proofs.Cleaning

/-! Alternatives on lines of their own. A bar may be put on a new line wherever it stands, since a
line that begins with a bar continues the statement above it, and since the blanks around an
alternative do not matter. Only the first line of a text may be read differently, and then it is
no beginning of a statement either way. -/

set_option autoImplicit false

namespace Predictive

namespace Text

/-- The text in which the bars at the chosen places begin new lines. -/
def breakBars (chosen : Nat → Bool) : List Char → List Char
  | [] => []
  | c :: rest =>
    let later := breakBars (fun place => chosen (place + 1)) rest
    if c = '|' && chosen 0 then '\n' :: c :: later else c :: later

@[simp] theorem trimStart_trimStart (text : List Char) :
    trimStart (trimStart text) = trimStart text :=
  dropWhile_eq_self fun _ => eq_false_of_head?_dropWhile

theorem trimStart_append_of_ne {text : List Char} (some : trimStart text ≠ []) (tail : List Char) :
    trimStart (text ++ tail) = trimStart text ++ tail := by
  unfold trimStart at some ⊢
  rw [List.dropWhile_append, if_neg (by simpa using some)]

theorem trimStart_append_of_eq {text : List Char} (empty : trimStart text = [])
    (tail : List Char) : trimStart (text ++ tail) = trimStart tail := by
  unfold trimStart at empty ⊢
  rw [List.dropWhile_append, if_pos (by simp [empty])]

theorem trimStart_append_trimStart (text tail : List Char) :
    trimStart (trimStart text ++ tail) = trimStart (text ++ tail) := by
  by_cases empty : trimStart text = []
  · rw [empty, List.nil_append, trimStart_append_of_eq empty]
  · rw [trimStart_append_of_ne empty, trimStart_append_of_ne (by simpa using empty),
      trimStart_trimStart]

theorem isBlank_of_trim_eq_nil {text : List Char} (empty : trim text = []) :
    ∀ c ∈ text, isBlank c = true := by
  obtain ⟨before, after, blanks, later, whole⟩ := exists_blanks_around_trim text
  intro c member
  rw [whole, empty, List.nil_append] at member
  exact (List.mem_append.mp member).elim (blanks c) (later c)

/-- Two texts that are not blank keep the blanks between them. -/
theorem exists_trim_append {left right : List Char} (first : trim left ≠ [])
    (second : trim right ≠ []) : ∃ gap, (∀ c ∈ gap, isBlank c = true) ∧
      trim (left ++ right) = trim left ++ (gap ++ trim right) := by
  obtain ⟨before, inner, blanks, gap, whole⟩ := exists_blanks_around_trim left
  obtain ⟨outer, after, more, later, rest⟩ := exists_blanks_around_trim right
  refine ⟨inner ++ outer, fun c member => (List.mem_append.mp member).elim (gap c) (more c), ?_⟩
  have solid : trim (trim left ++ (inner ++ outer ++ trim right)) =
      trim left ++ (inner ++ outer ++ trim right) := by
    refine trim_eq_self (fun c begins => ?_) fun c ends => ?_
    · rw [List.head?_append_of_ne_nil _ first] at begins
      exact isBlank_of_head?_trim begins
    · rw [← List.append_assoc, List.getLast?_append_of_ne_nil _ second] at ends
      exact isBlank_of_getLast?_trim ends
  calc trim (left ++ right)
      = trim (before ++ (trim left ++ (inner ++ outer ++ trim right) ++ after)) := by
        conv_lhs => rw [whole, rest]
        simp only [List.append_assoc]
    _ = trim left ++ (inner ++ outer ++ trim right) := by
        rw [trim_blanks_append blanks, trim_append_blanks later, solid]

theorem trim_trimStart (text : List Char) : trim (trimStart text) = trim text := by
  rw [trim, trimStart_trimStart, trim]

section
variable {test : Char → Bool} {tail : List Char} (stops : ∀ c ∈ tail.head?, test c = false)
include stops

theorem dropWhile_append_of_stop (text : List Char) :
    (text ++ tail).dropWhile test = text.dropWhile test ++ tail := by
  rw [List.dropWhile_append]
  split
  · next empty => rw [List.isEmpty_iff.mp empty, dropWhile_eq_self stops, List.nil_append]
  · rfl

theorem takeWhile_append_of_stop (text : List Char) :
    (text ++ tail).takeWhile test = text.takeWhile test := by
  apply List.append_cancel_right
  calc (text ++ tail).takeWhile test ++ (text ++ tail).dropWhile test
      = text ++ tail := List.takeWhile_append_dropWhile
    _ = text.takeWhile test ++ (text ++ tail).dropWhile test := by
      rw [dropWhile_append_of_stop stops, ← List.append_assoc, List.takeWhile_append_dropWhile]

end

end Text

namespace Source

open Text

variable {options : GrammarOptions} {gap front back : List Char}

/-! ### A bar behind blanks -/

/-- What stands between an alternative and the end of its statement. -/
structure BarTail (tail : List Char) : Prop where
  starts : ∀ c ∈ tail.head?, isBlank c = true ∨ c = '|'
  bar : (trimStart tail).head? = some '|'

theorem barTail (blank : ∀ c ∈ gap, isBlank c = true) (back : List Char) :
    BarTail (gap ++ '|' :: back) where
  starts := by
    cases gap with
    | nil => simp
    | cons c gap => simpa using .inl (blank c (by simp))
  bar := by
    unfold trimStart
    rw [List.dropWhile_append_of_pos blank]
    rfl

variable {tail : List Char}

/-- What begins with none of the characters of a mark does not complete it. -/
theorem prefix_of_prefix_append {mark text : List Char}
    (foreign : ∀ c ∈ mark, tail.head? ≠ some c) (begins : mark <+: text ++ tail) :
    mark <+: text := by
  induction mark generalizing text with
  | nil => exact List.nil_prefix
  | cons c mark ih =>
    obtain ⟨first, others⟩ := List.forall_mem_cons.mp foreign
    obtain ⟨after, whole⟩ := begins
    cases text with
    | nil => exact absurd (by rw [List.nil_append] at whole; rw [← whole]; rfl) first
    | cons d text =>
      obtain ⟨rfl, rest⟩ := List.cons.inj whole
      exact (List.prefix_cons_inj c).mpr (ih others ⟨after, rest⟩)

theorem BarTail.foreign (bar : BarTail tail) :
    ∀ c ∈ ['-', '>', '→', ':', '='], tail.head? ≠ some c := by
  intro c sign first
  have solid : ∀ c ∈ ['-', '>', '→', ':', '='], isBlank c = false ∧ c ≠ '|' := by
    simp [isBlank]
  rcases bar.starts c first with blank | same
  · simp [(solid c sign).1] at blank
  · exact (solid c sign).2 same

theorem BarTail.afterArrow? (bar : BarTail tail) (text : List Char) :
    afterArrow? (text ++ tail) = (afterArrow? text).map (· ++ tail) := by
  have before {mark rest : List Char} (sign : mark ⊆ ['-', '>', '→', ':', '='])
      (begins : text ++ tail = mark ++ rest) : ∃ more, text = mark ++ more := by
    obtain ⟨more, whole⟩ := prefix_of_prefix_append
      (fun c member => bar.foreign c (sign member)) ⟨rest, begins.symm⟩
    exact ⟨more, whole.symm⟩
  fun_cases Source.afterArrow? text with
  | case1 rest => rfl
  | case2 rest => rfl
  | case3 rest => rfl
  | case4 rest short =>
    refine afterArrow?.eq_4 _ fun after begins => ?_
    obtain ⟨more, whole⟩ := @before [':', ':', '='] after (by decide)
      (congrArg (':' :: ·) begins)
    exact short more (List.cons.inj whole).2
  | case5 rest => rfl
  | case6 _ dash arrow define colon equals =>
    -- an arrow at the front would be there without the tail
    refine afterArrow?.eq_6 _ ?_ ?_ ?_ ?_ ?_
    · exact fun after begins => (@before ['-', '>'] after (by decide) begins).elim dash
    · exact fun after begins => (@before ['→'] after (by decide) begins).elim arrow
    · exact fun after begins => (@before [':', ':', '='] after (by decide) begins).elim define
    · exact fun after begins => (@before [':'] after (by decide) begins).elim colon
    · exact fun after begins => (@before ['='] after (by decide) begins).elim equals

theorem continuesName_of_isBlank {c : Char} (blank : isBlank c = true) :
    continuesName c = false := by
  have apart : ∀ point ∈ List.range' 9 5 ++ List.range' 28 5 ++ [0x85, 0xA0, 0x1680] ++
      List.range' 0x2000 11 ++ [0x2028, 0x2029, 0x202F, 0x205F, 0x3000],
      continuesName (Char.ofNat point) = false := by decide +kernel
  rw [← Char.ofNat_toNat c]
  refine apart c.toNat ?_
  simp only [isBlank, Bool.or_eq_true, Bool.and_eq_true, decide_eq_true_eq, beq_iff_eq] at blank
  simp only [List.mem_append, List.mem_range'_1, List.mem_cons, List.not_mem_nil, or_false]
  omega

theorem BarTail.continuesName (bar : BarTail tail) :
    ∀ c ∈ tail.head?, continuesName c = false := by
  intro c first
  rcases bar.starts c first with blank | rfl
  · exact continuesName_of_isBlank blank
  · decide

theorem BarTail.arrow (bar : BarTail tail) (text : List Char) :
    Source.afterArrow? (trimStart (text ++ tail)) =
      (Source.afterArrow? (trimStart text)).map (· ++ tail) := by
  by_cases empty : trimStart text = []
  · obtain ⟨back, cut⟩ := List.head?_eq_some_iff.mp bar.bar
    rw [trimStart_append_of_eq empty, empty, cut]
    rfl
  · rw [trimStart_append_of_ne empty, bar.afterArrow?]

/-- The head of a statement is read from what stands before the bar. -/
theorem BarTail.readHead? (bar : BarTail tail) (text : List Char) :
    readHead? (text ++ tail) =
      (readHead? text).map fun (name, right) => (name, trimStart (right ++ tail)) := by
  unfold Source.readHead?
  cases start : trimStart text with
  | nil =>
    obtain ⟨back, cut⟩ := List.head?_eq_some_iff.mp bar.bar
    rw [trimStart_append_of_eq start, cut]
    rfl
  | cons first rest =>
    have whole : trimStart (text ++ tail) = first :: (rest ++ tail) := by
      rw [trimStart_append_of_ne (by simp [start]), start, List.cons_append]
    rw [whole]
    dsimp only
    split
    · rw [dropWhile_append_of_stop bar.continuesName, takeWhile_append_of_stop bar.continuesName,
        bar.arrow, Option.map_map, Option.map_map]
      refine congrArg (Option.map · _) (funext fun right => ?_)
      exact congrArg (Prod.mk _) (trimStart_append_trimStart right tail).symm
    · rfl

/-! ### Statements and lines -/

theorem isHead_append (bar : BarTail tail) (text : List Char) :
    isHead (text ++ tail) = isHead text := by
  rw [isHead, isHead, bar.readHead?, Option.isSome_map]

theorem isHead_bar (back : List Char) : isHead ('|' :: back) = false := rfl

/-- The rules of a statement do not depend on the blanks before a bar. -/
theorem statementRules_gap (blank : ∀ c ∈ gap, isBlank c = true) (front back : List Char) :
    statementRules options (front ++ (gap ++ '|' :: back)) =
      statementRules options (front ++ '|' :: back) := by
  have solid : isBlank '|' = false := by decide
  have pieces (right : List Char) :
      (cutAt '|' (trim (trimStart (right ++ (gap ++ '|' :: back))))).map trim =
        (cutAt '|' (trim (trimStart (right ++ '|' :: back)))).map trim := by
    rw [trim_trimStart, trim_trimStart, map_trim_cutAt_trim solid, map_trim_cutAt_trim solid,
      ← List.append_assoc, cutAt_append_mark, cutAt_append_mark, List.map_append, List.map_append,
      map_trim_cutAt_append_blanks solid blank]
  have plain : BarTail ('|' :: back) := @barTail [] (by simp) back
  unfold statementRules
  rw [(barTail blank back).readHead?, plain.readHead?]
  cases Source.readHead? front with
  | none => rfl
  | some head =>
    obtain ⟨name, right⟩ := head
    have same := congrArg (List.map fun alternative =>
      (⟨String.ofList name, alternativeNames options alternative⟩ : Rule)) (pieces right)
    rw [List.map_map, List.map_map] at same
    exact same

/-- What is said of a statement is said of what follows it. -/
theorem flatMap_continueStatement_gap (blank : ∀ c ∈ gap, isBlank c = true)
    (front back : List Char) (below : List (List Char)) :
    (continueStatement (front ++ (gap ++ '|' :: back)) below).flatMap (statementRules options) =
      (continueStatement (front ++ '|' :: back) below).flatMap (statementRules options) := by
  induction below generalizing back with
  | nil =>
    rw [continueStatement, continueStatement, List.flatMap_singleton, List.flatMap_singleton,
      statementRules_gap blank]
  | cons line below ih =>
    rw [continueStatement, continueStatement]
    split
    · rw [List.flatMap_cons, List.flatMap_cons, statementRules_gap blank]
    · have longer := ih (back ++ ' ' :: line)
      simpa only [List.append_assoc, List.cons_append] using longer

theorem flatMap_continueStatement_space (blank : ∀ c ∈ gap, isBlank c = true)
    (front back : List Char) (below : List (List Char)) :
    (continueStatement (front ++ ' ' :: '|' :: back) below).flatMap (statementRules options) =
      (continueStatement (front ++ (gap ++ '|' :: back)) below).flatMap
        (statementRules options) := by
  have space : ∀ c ∈ [' '], isBlank c = true := by simp [isBlank]
  rw [flatMap_continueStatement_gap blank]
  exact flatMap_continueStatement_gap space front back below

/-- A line may as well be two lines of which the second begins with a bar. -/
theorem flatMap_continueStatement_break (blank : ∀ c ∈ gap, isBlank c = true)
    (current front back : List Char) (above below : List (List Char)) :
    (continueStatement current (above ++ front :: ('|' :: back) :: below)).flatMap
        (statementRules options) =
      (continueStatement current (above ++ (front ++ (gap ++ '|' :: back)) :: below)).flatMap
        (statementRules options) := by
  induction above generalizing current with
  | nil =>
    simp only [List.nil_append, continueStatement, isHead_append (barTail blank back), isHead_bar,
      Bool.false_eq_true, if_false]
    split
    · rw [List.flatMap_cons, List.flatMap_cons, flatMap_continueStatement_space blank]
    · have longer := @flatMap_continueStatement_space options _ blank
        (current ++ ' ' :: front) back below
      simpa only [List.append_assoc, List.cons_append] using longer
  | cons line above ih =>
    rw [List.cons_append, List.cons_append, continueStatement, continueStatement]
    split
    · rw [List.flatMap_cons, List.flatMap_cons, ih]
    · exact ih _

/-- The rules of some lines, if the first of them begins a statement. -/
def linesRules? (options : GrammarOptions) (lines : List (List Char)) : Option (List Rule) :=
  (groupLines lines).toOption.map fun statements => statements.flatMap (statementRules options)

theorem linesRules?_break (blank : ∀ c ∈ gap, isBlank c = true) (front back : List Char)
    (above below : List (List Char)) :
    linesRules? options (above ++ front :: ('|' :: back) :: below) =
      linesRules? options (above ++ (front ++ (gap ++ '|' :: back)) :: below) := by
  unfold linesRules?
  cases above with
  | nil =>
    simp only [List.nil_append, groupLines, isHead_append (barTail blank back)]
    split
    · rw [continueStatement, isHead_bar, if_neg (by simp)]
      exact congrArg some (flatMap_continueStatement_space blank front back below)
    · rfl
  | cons line above =>
    rw [List.cons_append, List.cons_append, groupLines, groupLines]
    split
    · exact congrArg some (flatMap_continueStatement_break blank line front back above below)
    · rfl

/-! ### Texts -/

/-- What is kept of some lines. -/
def keptLines (lines : List (List Char)) : List (List Char) :=
  (lines.map trim).filter isKept

theorem keptLines_append (above below : List (List Char)) :
    keptLines (above ++ below) = keptLines above ++ keptLines below := by
  rw [keptLines, List.map_append, List.filter_append, keptLines, keptLines]

theorem keptLines_cons (line : List Char) (below : List (List Char)) :
    keptLines (line :: below) = keptLines [line] ++ keptLines below :=
  keptLines_append [line] below

theorem cleanLines_of_slashless {text : List Char} (slashless : '/' ∉ text) :
    cleanLines text = keptLines (cutAt '\n' text) := by
  rw [cleanLines_eq, withoutComments_eq_self slashless, keptLines]

theorem keptLines_singleton {line : List Char} (some : trim line ≠ []) (signless : '#' ∉ line) :
    keptLines [line] = [trim line] := by
  have sign : (trim line).head? ≠ Option.some '#' := fun first =>
    signless (mem_of_mem_trim (List.mem_of_head? first))
  simp [keptLines, isKept, some, sign]

theorem keptLines_blank {line : List Char} (empty : trim line = []) : keptLines [line] = [] := by
  simp [keptLines, isKept, empty]

/-- A line break before a bar leaves the lines as they are or cuts one of them. -/
theorem cleanLines_break {left right : List Char} (slashless : '/' ∉ left ++ '|' :: right)
    (signless : '#' ∉ left ++ '|' :: right) :
    cleanLines (left ++ '\n' :: '|' :: right) = cleanLines (left ++ '|' :: right) ∨
      ∃ above front gap back below, (∀ c ∈ gap, isBlank c = true) ∧
        cleanLines (left ++ '\n' :: '|' :: right) = above ++ front :: ('|' :: back) :: below ∧
        cleanLines (left ++ '|' :: right) =
          above ++ (front ++ (gap ++ '|' :: back)) :: below := by
  obtain ⟨piece, pieces, cut⟩ := List.exists_cons_of_ne_nil (cutAt_ne_nil '\n' right)
  have second : cutAt '\n' ('|' :: right) = ('|' :: piece) :: pieces := by simp [cutAt, cut]
  obtain ⟨above, last, _, _, ends, begins, whole⟩ := exists_cutAt_append '\n' left ('|' :: right)
  obtain ⟨rfl, rfl⟩ := List.cons.inj (second.symm.trans begins)
  have unslashed : '/' ∉ left ++ '\n' :: '|' :: right := by simpa using slashless
  have plain : '#' ∉ last ++ '|' :: piece := by
    have part : last ++ '|' :: piece ∈ cutAt '\n' (left ++ '|' :: right) := by simp [whole]
    exact fun inside => signless ((infix_of_mem_cutAt part).subset inside)
  obtain ⟨back, bar⟩ := exists_trim_cons (c := '|') (by decide) piece
  have filled : trim ('|' :: piece) ≠ [] := by simp [bar]
  have lower := keptLines_singleton filled fun inside => plain (List.mem_append_right _ inside)
  have broken : cleanLines (left ++ '\n' :: '|' :: right) =
      keptLines above ++ (keptLines [last] ++ ('|' :: back) :: keptLines pieces) := by
    rw [cleanLines_of_slashless unslashed, cutAt_append_mark, second, ends, List.append_assoc,
      keptLines_append, keptLines_append, keptLines_cons ('|' :: piece), lower, bar]
    rfl
  have merged : cleanLines (left ++ '|' :: right) =
      keptLines above ++ (keptLines [last ++ '|' :: piece] ++ keptLines pieces) := by
    rw [cleanLines_of_slashless slashless, whole, keptLines_append,
      keptLines_cons (last ++ '|' :: piece)]
  rw [broken, merged]
  by_cases empty : trim last = []
  · have blank := isBlank_of_trim_eq_nil empty
    have joined : trim (last ++ '|' :: piece) = trim ('|' :: piece) := trim_blanks_append blank _
    left
    rw [keptLines_blank empty, keptLines_singleton (by rwa [joined]) plain, joined, bar]
    rfl
  · obtain ⟨gap, blank, joined⟩ := exists_trim_append empty filled
    have solid : trim (last ++ '|' :: piece) ≠ [] := by simp [joined, empty]
    rw [bar] at joined
    right
    refine ⟨keptLines above, trim last, gap, back, keptLines pieces, blank, ?_, ?_⟩
    · rw [keptLines_singleton empty fun inside => plain (List.mem_append_left _ inside)]
      rfl
    · rw [keptLines_singleton solid plain, joined]
      rfl

theorem toOption_rules (options : GrammarOptions) (text : String) :
    (Source.rules options text).toOption = linesRules? options (cutAt '\n' (clean text.toList)) := by
  unfold Source.rules statements linesRules?
  cases groupLines (cutAt '\n' (clean text.toList)) <;> rfl

/-- A line break before a bar changes no rules. -/
theorem linesRules?_clean_break (options : GrammarOptions) {left right : List Char}
    (slashless : '/' ∉ left ++ '|' :: right) (signless : '#' ∉ left ++ '|' :: right) :
    linesRules? options (cutAt '\n' (clean (left ++ '\n' :: '|' :: right))) =
      linesRules? options (cutAt '\n' (clean (left ++ '|' :: right))) := by
  rcases cleanLines_break slashless signless with
    same | ⟨above, front, gap, back, below, blank, broken, merged⟩
  · rw [clean, clean, same]
  · rw [cutAt_clean (by simp [broken]), cutAt_clean (by simp [merged]), broken, merged]
    exact linesRules?_break blank front back above below

/-- Line breaks before any bars of a text, behind a text that stays as it is, change no rules. -/
theorem linesRules?_clean_breakBars (options : GrammarOptions) (chosen : Nat → Bool)
    (above text : List Char) (slashless : '/' ∉ above ++ text) (signless : '#' ∉ above ++ text) :
    linesRules? options (cutAt '\n' (clean (above ++ breakBars chosen text))) =
      linesRules? options (cutAt '\n' (clean (above ++ text))) := by
  induction text generalizing above chosen with
  | nil => rfl
  | cons c rest ih =>
    have later := ih (fun place => chosen (place + 1)) (above ++ [c]) (by simpa using slashless)
      (by simpa using signless)
    rw [breakBars]
    split
    · next breaks =>
      obtain rfl : c = '|' := (by simpa using breaks : c = '|' ∧ _).1
      have lower := ih (fun place => chosen (place + 1)) (above ++ ['\n', '|'])
        (by simpa using slashless) (by simpa using signless)
      have once := linesRules?_clean_break options slashless signless
      rw [List.append_assoc, List.append_assoc] at lower
      exact lower.trans once
    · rw [List.append_assoc, List.append_assoc] at later
      exact later

/-- The first line that is not left out is the head of a statement. -/
def beginsStatement (text : List Char) : Bool :=
  (cleanLines text).head?.any isHead

theorem exists_rules_of_begins (options : GrammarOptions) {text : String}
    (begins : beginsStatement text.toList = true) :
    ∃ rules, Source.rules options text = .ok rules := by
  cases lines : cleanLines text.toList with
  | nil => simp [beginsStatement, lines] at begins
  | cons line below =>
    have head : isHead line = true := by simpa [beginsStatement, lines] using begins
    rw [Source.rules, statements, cutAt_clean (by simp [lines]), lines, groupLines, if_pos head]
    exact ⟨_, rfl⟩

theorem rules_of_not_begins (options : GrammarOptions) {text : String}
    (strange : ¬ beginsStatement text.toList = true) :
    ∃ line, Source.rules options text = .error (.unreadableLine line) := by
  cases lines : cleanLines text.toList with
  | nil =>
    refine ⟨"", ?_⟩
    rw [Source.rules, clean, lines]
    rfl
  | cons line below =>
    have stray : ¬ isHead line = true := by simpa [beginsStatement, lines] using strange
    refine ⟨String.ofList line, ?_⟩
    rw [Source.rules, statements, cutAt_clean (by simp [lines]), lines, groupLines, if_neg stray]

end Source

namespace Loader

open Text Source

/-- Alternatives may be put on lines of their own: with line breaks before any of its bars, a text
without comments that begins with a statement is the same rules and the same grammar, or is refused
alike. Any other text is refused either way. -/
theorem load_breakBars (loader : Loader) (text : String) (chosen : Nat → Bool)
    (start : Option String) (slashless : '/' ∉ text.toList) (signless : '#' ∉ text.toList) :
    let broken := String.ofList (breakBars chosen text.toList)
    if beginsStatement text.toList then loader.load broken start = loader.load text start
    else ∃ line other,
      loader.load text start = (.error (.unreadableLine line), ⟨loader.options, []⟩) ∧
        loader.load broken start = (.error (.unreadableLine other), ⟨loader.options, []⟩) := by
  intro broken
  have agree : (Source.rules loader.options broken).toOption =
      (Source.rules loader.options text).toOption := by
    rw [toOption_rules, toOption_rules, String.toList_ofList]
    exact linesRules?_clean_breakBars loader.options chosen [] text.toList slashless signless
  unfold load Grammar.ofText
  split
  · next begins =>
    obtain ⟨rules, read⟩ := exists_rules_of_begins loader.options begins
    rw [read] at agree
    cases again : Source.rules loader.options broken with
    | ok others =>
      rw [again] at agree
      obtain rfl : others = rules := Option.some.inj agree
      rw [read]
    | error cause =>
      rw [again] at agree
      cases agree
  · next strange =>
    obtain ⟨line, failed⟩ := rules_of_not_begins loader.options strange
    rw [failed] at agree
    -- as nothing is read from the one text, nothing is from the other
    have alike : ¬ beginsStatement broken.toList = true := by
      intro begins
      obtain ⟨rules, read⟩ := exists_rules_of_begins loader.options begins
      rw [read] at agree
      cases agree
    obtain ⟨other, refused⟩ := rules_of_not_begins loader.options alike
    refine ⟨line, other, ?_, ?_⟩
    · rw [failed]
      rfl
    · rw [refused]
      rfl

/-- Bars between quotes, before an arrow, at both ends of a line and on a line of their own. -/
theorem load_breakBars_scattered :
    '/' ∉ "S -> a | 'b|c' |
|A
|
A|B : x".toList ∧ '#' ∉ "S -> a | 'b|c' |
|A
|
A|B : x".toList ∧
      ∀ (loader : Loader) start,
        loader.load "S -> a 
| 'b
|c' 
|

|A

|
A
|B : x" start =
          loader.load "S -> a | 'b|c' |
|A
|
A|B : x" start := by
  have slashless : '/' ∉ "S -> a | 'b|c' |
|A
|
A|B : x".toList := by decide
  have signless : '#' ∉ "S -> a | 'b|c' |
|A
|
A|B : x".toList := by decide
  have begins : beginsStatement "S -> a | 'b|c' |
|A
|
A|B : x".toList = true := by
    rw [beginsStatement, cleanLines_of_slashless slashless]
    decide +kernel
  have written : String.ofList (breakBars (fun _ => true) "S -> a | 'b|c' |
|A
|
A|B : x".toList) =
      "S -> a 
| 'b
|c' 
|

|A

|
A
|B : x" := by decide +kernel
  refine ⟨slashless, signless, fun loader start => ?_⟩
  have loaded := load_breakBars loader "S -> a | 'b|c' |
|A
|
A|B : x" (fun _ => true) start
    slashless signless
  rw [written] at loaded
  simpa only [begins, if_true] using loaded

end Loader

end Predictive
