import Predictive.Proofs.AlternativeLines

/-! Statements in their lines. There is one way to read the head of a line: a name, an arrow and the
text on its right. Whatever stands behind a blank belongs to that text, so lines can be appended to a
statement and its head is still read as it was. So a line with a head begins a statement, every other
one continues the statement above it, and no line gets lost. -/

set_option autoImplicit false

namespace Predictive

namespace Text

variable {mark : Char} {piece : List Char} {pieces : List (List Char)}

theorem joinWith_cons (mark : Char) (piece : List Char) (pieces : List (List Char)) :
    joinWith mark (piece :: pieces) = piece ++ pieces.flatMap (mark :: ·) := by
  induction pieces generalizing piece with
  | nil => simp [joinWith]
  | cons next more ih => rw [joinWith, ih, List.flatMap_cons, List.cons_append]

/-- Groups that are joined by themselves first make no difference. -/
theorem joinWith_flatten {groups : List (List (List Char))} (some : ∀ group ∈ groups, group ≠ []) :
    joinWith mark (groups.map (joinWith mark)) = joinWith mark groups.flatten := by
  induction groups with
  | nil => rfl
  | cons group rest ih =>
    obtain ⟨first, others⟩ := List.forall_mem_cons.mp some
    cases rest with
    | nil => simp [joinWith]
    | cons next more =>
      have filled : (next :: more).flatten ≠ [] := by simp [others next (by simp)]
      rw [List.flatten_cons, joinWith_append first filled, ← ih others]
      rfl

end Text

namespace Source

open Text

variable {line name right tail : List Char}

/-! ### Heads -/

/-- What may stand between the name and the alternatives of a statement. -/
inductive Arrow where
  | dash
  | pointed
  | defined
  | colon
  | equals
  deriving DecidableEq, Repr

def Arrow.sign : Arrow → List Char
  | .dash => ['-', '>']
  | .pointed => ['→']
  | .defined => [':', ':', '=']
  | .colon => [':']
  | .equals => ['=']

/-- A line that is a name, an arrow and a text, each of them behind blanks or at once. A colon before
`:=` is part of an arrow, and no arrow itself. -/
inductive Heads : List Char → List Char → Arrow → List Char → Prop where
  | intro {before name gap after right : List Char} {arrow : Arrow}
      (leading : ∀ c ∈ before, isBlank c = true) (named : IsLeftName name)
      (between : ∀ c ∈ gap, isBlank c = true) (behind : ∀ c ∈ after, isBlank c = true)
      (solid : ∀ c ∈ right.head?, isBlank c = false)
      (whole : arrow = .colon → ¬ [':', '='] <+: after ++ right) :
      Heads (before ++ (name ++ (gap ++ (arrow.sign ++ (after ++ right))))) name arrow right

/-- The arrow that a text begins with, and what follows it. -/
def readArrow? : List Char → Option (Arrow × List Char)
  | '-' :: '>' :: rest => some (.dash, rest)
  | '→' :: rest => some (.pointed, rest)
  | ':' :: ':' :: '=' :: rest => some (.defined, rest)
  | ':' :: rest => some (.colon, rest)
  | '=' :: rest => some (.equals, rest)
  | _ => none

/-- As `readHead?`, with the arrow. -/
def splitHead? (line : List Char) : Option (List Char × Arrow × List Char) :=
  match trimStart line with
  | [] => none
  | first :: rest =>
    if startsName first then
      (readArrow? (trimStart (rest.dropWhile continuesName))).map fun (arrow, right) =>
        (first :: rest.takeWhile continuesName, arrow, trimStart right)
    else none

theorem afterArrow?_eq (text : List Char) : afterArrow? text = (readArrow? text).map Prod.snd := by
  fun_cases readArrow? text with
  | case1 => rfl
  | case2 => rfl
  | case3 => rfl
  | case4 rest short => exact afterArrow?.eq_4 _ short
  | case5 => rfl
  | case6 _ dash pointed defined colon equals =>
    exact afterArrow?.eq_6 _ dash pointed defined colon equals

theorem readHead?_eq (line : List Char) :
    readHead? line = (splitHead? line).map fun (name, _, right) => (name, right) := by
  unfold readHead? splitHead?
  cases trimStart line with
  | nil => rfl
  | cons first rest =>
    dsimp only
    split
    · rw [afterArrow?_eq, Option.map_map, Option.map_map]
      rfl
    · rfl

theorem readArrow?_eq_some {arrow : Arrow} {text rest : List Char} :
    readArrow? text = some (arrow, rest) ↔
      text = arrow.sign ++ rest ∧ (arrow = .colon → ¬ [':', '='] <+: rest) := by
  constructor
  · fun_cases readArrow? text with
    | case1 | case2 | case3 | case5 =>
      rintro ⟨⟩
      exact ⟨rfl, nofun⟩
    | case4 after short =>
      rintro ⟨⟩
      refine ⟨rfl, fun _ => ?_⟩
      rintro ⟨more, equal⟩
      exact short more equal.symm
    | case6 => exact nofun
  · rintro ⟨rfl, whole⟩
    cases arrow with
    | colon =>
      refine readArrow?.eq_4 _ fun after equal => ?_
      exact whole rfl ⟨after, equal.symm⟩
    | _ => rfl

theorem Arrow.head?_sign (arrow : Arrow) (rest : List Char) :
    ∀ c ∈ (arrow.sign ++ rest).head?, isBlank c = false ∧ continuesName c = false := by
  cases arrow <;> exact fun c first => Option.some.inj first ▸ by decide +kernel

theorem trimStart_blanks_append {before text : List Char} (blank : ∀ c ∈ before, isBlank c = true)
    (solid : ∀ c ∈ text.head?, isBlank c = false) : trimStart (before ++ text) = text := by
  unfold trimStart
  rw [List.dropWhile_append_of_pos blank]
  exact dropWhile_eq_self solid

theorem blanks_append_trimStart (text : List Char) :
    text.takeWhile isBlank ++ trimStart text = text :=
  List.takeWhile_append_dropWhile

theorem Heads.split {arrow : Arrow} (heads : Heads line name arrow right) :
    splitHead? line = some (name, arrow, right) := by
  obtain @⟨before, _, gap, after, _, _, leading, named, between, behind, solid, whole⟩ := heads
  obtain ⟨first, others, rfl, starts, continues⟩ := named.exists_cons
  have sign := arrow.head?_sign (after ++ right)
  have begun : trimStart (before ++ (first :: others ++ (gap ++ (arrow.sign ++ (after ++ right))))) =
      first :: (others ++ (gap ++ (arrow.sign ++ (after ++ right)))) :=
    trimStart_blanks_append leading (by simpa using isBlank_of_startsName starts)
  -- the name ends at the arrow, or at a blank before it
  have stops : ∀ c ∈ (gap ++ (arrow.sign ++ (after ++ right))).head?, continuesName c = false := by
    cases gap with
    | nil => exact fun c first => (sign c first).2
    | cons c gap => simpa using continuesName_of_isBlank (between c (by simp))
  have arrived : trimStart (gap ++ (arrow.sign ++ (after ++ right))) =
      arrow.sign ++ (after ++ right) :=
    trimStart_blanks_append between fun c first => (sign c first).1
  have read : readArrow? (arrow.sign ++ (after ++ right)) = some (arrow, after ++ right) :=
    readArrow?_eq_some.mpr ⟨rfl, whole⟩
  unfold splitHead?
  rw [begun]
  dsimp only
  rw [if_pos starts, dropWhile_append_of_stop stops, takeWhile_append_of_stop stops,
    List.dropWhile_eq_nil_iff.mpr continues, List.takeWhile_eq_self_iff.mpr continues,
    List.nil_append, arrived, read, Option.map_some, trimStart_blanks_append behind solid]

theorem heads_of_splitHead? {arrow : Arrow} (read : splitHead? line = some (name, arrow, right)) :
    Heads line name arrow right := by
  unfold splitHead? at read
  split at read
  · cases read
  · next first rest begun =>
    split at read
    · next starts =>
      obtain ⟨⟨sign, after⟩, arrived, equal⟩ := Option.map_eq_some_iff.mp read
      obtain ⟨rfl, rfl, rfl⟩ : first :: rest.takeWhile continuesName = name ∧ sign = arrow ∧
          trimStart after = right := by simpa using equal
      obtain ⟨cut, whole⟩ := readArrow?_eq_some.mp arrived
      have parts : line = line.takeWhile isBlank ++ (first :: rest.takeWhile continuesName ++
          ((rest.dropWhile continuesName).takeWhile isBlank ++
            (sign.sign ++ (after.takeWhile isBlank ++ trimStart after)))) := by
        rw [blanks_append_trimStart, ← cut, blanks_append_trimStart, List.cons_append,
          List.takeWhile_append_dropWhile, ← begun, blanks_append_trimStart]
      rw [parts]
      refine .intro (fun _ => List.mem_takeWhile_imp) ⟨starts, ?_⟩ (fun _ => List.mem_takeWhile_imp)
        (fun _ => List.mem_takeWhile_imp) (fun _ => eq_false_of_head?_dropWhile) ?_
      · exact List.all_eq_true.mpr fun _ => List.mem_takeWhile_imp
      · rwa [blanks_append_trimStart]
    · cases read

/-- The function finds the one way in which a head can be read. -/
theorem heads_iff {arrow : Arrow} :
    Heads line name arrow right ↔ splitHead? line = some (name, arrow, right) :=
  ⟨Heads.split, heads_of_splitHead?⟩

/-- A line that begins a statement. -/
def Begins (line : List Char) : Prop :=
  ∃ name arrow right, Heads line name arrow right

theorem Heads.readHead? {arrow : Arrow} (heads : Heads line name arrow right) :
    readHead? line = some (name, right) := by
  rw [readHead?_eq, heads_iff.mp heads]
  rfl

theorem begins_iff : Begins line ↔ isHead line = true := by
  rw [isHead, readHead?_eq, Option.isSome_map, Option.isSome_iff_exists]
  constructor
  · rintro ⟨name, arrow, right, heads⟩
    exact ⟨_, heads_iff.mp heads⟩
  · rintro ⟨⟨name, arrow, right⟩, read⟩
    exact ⟨name, arrow, right, heads_iff.mpr read⟩

/-- A head is read in one way. -/
theorem Heads.unique {arrow another : Arrow} {other behind : List Char}
    (heads : Heads line name arrow right) (again : Heads line other another behind) :
    other = name ∧ another = arrow ∧ behind = right := by
  have same := (heads_iff.mp again).symm.trans (heads_iff.mp heads)
  simpa using same

/-- Behind a blank, whatever is appended goes into the text on the right. -/
theorem Heads.append {arrow : Arrow} (heads : Heads line name arrow right)
    (apart : ∀ c ∈ tail.head?, isBlank c = true) :
    Heads (line ++ tail) name arrow (trimStart (right ++ tail)) := by
  obtain @⟨before, _, gap, after, _, _, leading, named, between, behind, solid, whole⟩ := heads
  have parts : before ++ (name ++ (gap ++ (arrow.sign ++ (after ++ right)))) ++ tail =
      before ++ (name ++ (gap ++ (arrow.sign ++
        ((after ++ (right ++ tail).takeWhile isBlank) ++ trimStart (right ++ tail))))) := by
    simp only [List.append_assoc, trimStart, List.takeWhile_append_dropWhile]
  rw [parts]
  refine .intro leading named between ?_ (fun _ => eq_false_of_head?_dropWhile) ?_
  · intro c member
    exact (List.mem_append.mp member).elim (behind c) List.mem_takeWhile_imp
  · intro colon begins
    -- the blank does not complete `::=`, so what does was there before
    have before : [':', '='] <+: (after ++ right) ++ tail := by
      simpa only [List.append_assoc, trimStart, List.takeWhile_append_dropWhile] using begins
    refine whole colon (prefix_of_prefix_append ?_ before)
    intro c sign first
    have solid : ∀ c ∈ [':', '='], isBlank c = false := by simp [isBlank]
    simpa [solid c sign] using apart c first

/-! ### Lines of a statement -/

/-- The line that begins a statement, and the lines that continue it. -/
structure Block where
  first : List Char
  others : List (List Char)

namespace Block

variable {block : Block} {blocks : List Block}

def lines (block : Block) : List (List Char) :=
  block.first :: block.others

/-- What the other lines add to the first one. -/
def continuation (block : Block) : List Char :=
  block.others.flatMap (' ' :: ·)

def text (block : Block) : List Char :=
  joinWith ' ' block.lines

structure IsStatement (block : Block) : Prop where
  begins : Begins block.first
  continues : ∀ line ∈ block.others, ¬ Begins line

theorem text_eq (block : Block) : block.text = block.first ++ block.continuation :=
  joinWith_cons _ _ _

/-- The other lines do not change how the head of the first one is read. -/
theorem heads_text {arrow : Arrow} (heads : Heads block.first name arrow right) :
    Heads block.text name arrow (trimStart (right ++ block.continuation)) := by
  rw [text_eq]
  refine heads.append fun c first => ?_
  unfold continuation at first
  cases others : block.others with
  | nil => simp [others] at first
  | cons line rest =>
    obtain rfl : ' ' = c := by simpa [others] using first
    decide

theorem countP_isHead_lines (statement : block.IsStatement) :
    block.lines.countP isHead = 1 := by
  have none : block.others.countP isHead = 0 := by
    rw [List.countP_eq_zero]
    exact fun line member => fun head => statement.continues line member (begins_iff.mpr head)
  rw [lines, List.countP_cons_of_pos (begins_iff.mp statement.begins), none]

/-- Every statement begins with the one line of its own that can begin one. -/
theorem countP_isHead (statements : ∀ block ∈ blocks, block.IsStatement) :
    (blocks.flatMap lines).countP isHead = blocks.length := by
  induction blocks with
  | nil => rfl
  | cons block rest ih =>
    obtain ⟨first, others⟩ := List.forall_mem_cons.mp statements
    rw [List.flatMap_cons, List.countP_append, countP_isHead_lines first, ih others,
      List.length_cons, Nat.add_comm]

theorem joinWith_text (blocks : List Block) :
    joinWith ' ' (blocks.map text) = joinWith ' ' (blocks.flatMap lines) := by
  have filled : ∀ group ∈ blocks.map lines, group ≠ [] := by simp [lines]
  rw [List.flatMap_def, ← joinWith_flatten filled, List.map_map]
  rfl

end Block

/-- The lines below a statement that is being read go to it and to the statements after it. -/
theorem exists_blocks {first : List Char} {others : List (List Char)}
    (statement : Block.IsStatement ⟨first, others⟩) (below : List (List Char)) :
    ∃ blocks : List Block, blocks ≠ [] ∧ (∀ block ∈ blocks, block.IsStatement) ∧
      first :: (others ++ below) = blocks.flatMap Block.lines ∧
        continueStatement (Block.text ⟨first, others⟩) below = blocks.map Block.text := by
  induction below generalizing first others with
  | nil => exact ⟨[⟨first, others⟩], by simp, by simpa using statement, by simp [Block.lines], rfl⟩
  | cons line below ih =>
    by_cases begins : Begins line
    · obtain ⟨blocks, _, statements, lines, continued⟩ := @ih line [] ⟨begins, by simp⟩
      refine ⟨⟨first, others⟩ :: blocks, by simp, List.forall_mem_cons.mpr ⟨statement, statements⟩,
        ?_, ?_⟩
      · rw [List.flatMap_cons, ← lines]
        rfl
      · rw [continueStatement, if_pos (begins_iff.mp begins), List.map_cons, ← continued]
        rfl
    · have longer : Block.IsStatement ⟨first, others ++ [line]⟩ :=
        ⟨statement.begins, by simpa [or_imp, forall_and] using ⟨statement.continues, begins⟩⟩
      obtain ⟨blocks, some, statements, lines, continued⟩ := ih longer
      refine ⟨blocks, some, statements, by simpa using lines, ?_⟩
      rw [continueStatement, if_neg (fun head => begins (begins_iff.mpr head)), ← continued]
      simp [Block.text_eq, Block.continuation]

/-- Lines that are those of some statements, one after another. -/
structure Groups (lines : List (List Char)) (blocks : List Block) : Prop where
  some : blocks ≠ []
  statements : ∀ block ∈ blocks, block.IsStatement
  whole : lines = blocks.flatMap Block.lines
  count : blocks.length = lines.countP isHead
  joined : joinWith ' ' (blocks.map Block.text) = joinWith ' ' lines

theorem exists_groups (begins : Begins line) (below : List (List Char)) :
    ∃ blocks, Groups (line :: below) blocks ∧
      groupLines (line :: below) = .ok (blocks.map Block.text) := by
  have alone : Block.IsStatement ⟨line, []⟩ := ⟨begins, by simp⟩
  obtain ⟨blocks, some, statements, lines, continued⟩ := exists_blocks alone below
  rw [List.nil_append] at lines
  refine ⟨blocks, ⟨some, statements, lines, ?_, ?_⟩, ?_⟩
  · rw [lines, Block.countP_isHead statements]
  · rw [lines, Block.joinWith_text]
  · rw [groupLines, if_pos (begins_iff.mp begins), ← continued]
    rfl

/-- The colon of the first line stays an arrow of its own. -/
example : groupLines ["A :".toList, ":= b".toList, "B ::= c".toList] =
    .ok ["A : := b".toList, "B ::= c".toList] := by rfl

theorem statementRules_ne_nil {options : GrammarOptions}
    (read : readHead? line = some (name, right)) : statementRules options line ≠ [] := by
  simp [statementRules, read, cutAt_ne_nil]

theorem lhs_of_mem_statementRules {options : GrammarOptions} {rule : Rule}
    (read : readHead? line = some (name, right)) (member : rule ∈ statementRules options line) :
    rule.lhs = String.ofList name := by
  simp only [statementRules, read, List.mem_map] at member
  obtain ⟨_, _, rfl⟩ := member
  rfl

end Source

namespace Loader

open Text Source

/-- If the first line of a cleaned text begins a statement, then the lines are those of some
statements, which are read one by one: the head of each is that of its first line, and it has at least
one rule. Otherwise the text is refused, and no rules are kept. -/
theorem load_by_lines (loader : Loader) (text : String) (start : Option String) :
    ∃ line below, cutAt '\n' (clean text.toList) = line :: below ∧
      (Begins line → ∃ blocks : List Block, Groups (line :: below) blocks ∧
        statements (clean text.toList) = .ok (blocks.map Block.text) ∧
          (∀ block ∈ blocks, ∃ name arrow right, Heads block.first name arrow right ∧
            Heads block.text name arrow (trimStart (right ++ block.continuation)) ∧
            readHead? block.text = some (name, trimStart (right ++ block.continuation)) ∧
            statementRules loader.options block.text ≠ [] ∧
            ∀ rule ∈ statementRules loader.options block.text, rule.lhs = String.ofList name) ∧
          (loader.load text start).2.rules =
            blocks.flatMap fun block => statementRules loader.options block.text) ∧
      (¬ Begins line →
        statements (clean text.toList) = .error (.unreadableLine (String.ofList line)) ∧
          loader.load text start =
            (.error (.unreadableLine (String.ofList line)), ⟨loader.options, []⟩)) := by
  obtain ⟨line, below, cut⟩ := List.exists_cons_of_ne_nil (cutAt_ne_nil '\n' (clean text.toList))
  refine ⟨line, below, cut, ?_, ?_⟩
  · intro begins
    obtain ⟨blocks, groups, grouped⟩ := exists_groups begins below
    have read : statements (clean text.toList) = .ok (blocks.map Block.text) := by
      rw [statements, cut, grouped]
    refine ⟨blocks, groups, read, ?_, ?_⟩
    · intro block member
      obtain ⟨name, arrow, right, heads⟩ := (groups.statements block member).begins
      have whole := Block.heads_text heads
      exact ⟨name, arrow, right, heads, whole, whole.readHead?, statementRules_ne_nil whole.readHead?,
        fun rule => lhs_of_mem_statementRules whole.readHead?⟩
    · simp [load, Source.rules, read, Except.toOption, List.flatMap_map]
  · intro strange
    have refused : statements (clean text.toList) = .error (.unreadableLine (String.ofList line)) := by
      rw [statements, cut, groupLines, if_neg fun head => strange (begins_iff.mpr head)]
    refine ⟨refused, ?_⟩
    simp [load, Grammar.ofText, Source.rules, refused, Except.toOption]

end Loader

end Predictive
