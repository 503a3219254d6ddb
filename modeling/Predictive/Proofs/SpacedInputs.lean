import Predictive.Proofs.Tiling
import Predictive.Proofs.Runs
import Predictive.Proofs.RuleLists

/-! Inputs that are written as text. Where no name of a terminal holds a blank, names with blanks
between them are cut into exactly these names, even if one begins another. So a parse of the text is
a parse of the names. -/

set_option autoImplicit false

namespace Predictive

/-- A name with what stands before it. -/
structure SpacedName where
  gap : String
  name : String
  deriving DecidableEq, Repr

namespace SpacedName

open Text

/-- Names one after another, each behind its gap, and what follows the last. -/
def written : List SpacedName → String → String
  | [], ending => ending
  | word :: rest, ending => word.gap ++ word.name ++ written rest ending

/-- Each name as a token at its place in the text. -/
def placed : Nat → List SpacedName → List Token
  | _, [] => []
  | position, word :: rest =>
    let start := position + word.gap.length
    ⟨word.name, word.name, start⟩ :: placed (start + word.name.length) rest

/-- Gaps of blanks, none of which is empty but perhaps the first. -/
structure Spaced (words : List SpacedName) (ending : String) : Prop where
  blank : ∀ word ∈ words, ∀ c ∈ word.gap.toList, isBlank c = true
  apart : ∀ word ∈ words.tail, word.gap ≠ ""
  ending : ∀ c ∈ ending.toList, isBlank c = true

variable {word : SpacedName} {words : List SpacedName} {ending : String}

theorem toList_written_cons :
    (written (word :: words) ending).toList =
      word.gap.toList ++ (word.name.toList ++ (written words ending).toList) := by
  simp [written]

theorem map_type_placed (position : Nat) :
    (placed position words).map Token.type = words.map SpacedName.name := by
  induction words generalizing position with
  | nil => rfl
  | cons word words ih => rw [placed, List.map_cons, List.map_cons, ih]

theorem Spaced.tail (spaced : Spaced (word :: words) ending) : Spaced words ending where
  blank := fun other member => spaced.blank other (List.mem_cons_of_mem _ member)
  apart := fun other member => spaced.apart other (List.mem_of_mem_tail member)
  ending := spaced.ending

/-- What follows a name begins with a blank, if anything follows. -/
theorem Spaced.stops (spaced : Spaced (word :: words) ending) :
    ∀ c ∈ (written words ending).toList.head?, isBlank c = true := by
  intro c first
  cases words with
  | nil => exact spaced.ending c (List.mem_of_head? first)
  | cons next rest =>
    have filled : next.gap.toList ≠ [] := by
      simpa using spaced.apart next (by simp)
    rw [toList_written_cons, List.head?_append_of_ne_nil _ filled] at first
    exact spaced.blank next (by simp) c (List.mem_of_head? first)

end SpacedName

namespace Token

open Text SpacedName

variable {terminals : List Symbol} {names : List (List Char)} {gap rest : List Char} {name : String}
  {words : List SpacedName} {ending : String}

theorem read?_gap (blank : ∀ c ∈ gap, isBlank c = true) (position : Nat) :
    read? names position (gap ++ rest) = read? names (position + gap.length) rest := by
  induction gap generalizing position with
  | nil => rfl
  | cons c gap ih =>
    obtain ⟨first, others⟩ := List.forall_mem_cons.mp blank
    rw [List.cons_append, read?_blank first, ih others, List.length_cons]
    congr 1
    omega

/-- A name is taken whole, as no longer one reaches over the blank behind it. -/
theorem munch_of_stops
    (solid : ∀ terminal ∈ terminals, ∀ c ∈ terminal.name.toList, isBlank c = false)
    (known : ∃ terminal ∈ terminals, terminal.name = name)
    (stops : ∀ c ∈ rest.head?, isBlank c = true) :
    Munch terminals (name.toList ++ rest) name := by
  refine .name known (List.prefix_append _ _) fun terminal member begins => ?_
  rw [← String.length_toList, ← String.length_toList]
  cases rest with
  | nil =>
    have short := begins.length_le
    rwa [List.append_nil] at short
  | cons c rest =>
    by_contra longer
    -- the blank behind the name would be part of the longer one
    have inside : name.toList ++ [c] <+: name.toList ++ c :: rest := ⟨rest, by simp⟩
    have reaches : name.toList ++ [c] <+: terminal.name.toList := by
      apply List.prefix_of_prefix_length_le inside begins
      rw [List.length_append, List.length_singleton]
      omega
    have unblank := solid terminal member c (reaches.subset (by simp))
    rw [stops c rfl] at unblank
    cases unblank

theorem read?_name (named : ∀ terminal ∈ terminals, terminal.name ≠ "")
    (solid : ∀ terminal ∈ terminals, ∀ c ∈ terminal.name.toList, isBlank c = false)
    (known : ∃ terminal ∈ terminals, terminal.name = name)
    (stops : ∀ c ∈ rest.head?, isBlank c = true) (position : Nat) :
    read? (trials terminals) position (name.toList ++ rest) =
      (read? (trials terminals) (position + name.length) rest).map (⟨name, name, position⟩ :: ·) := by
  have munch := munch_of_stops solid known stops
  obtain ⟨terminal, member, rfl⟩ := known
  have length : terminal.name.toList.length = terminal.name.length := String.length_toList
  have filled := named terminal member
  have unblank := solid terminal member
  -- whether to read a blank or a name shows in the first character
  cases spelled : terminal.name.toList with
  | nil => exact absurd (String.toList_eq_nil_iff.mp spelled) filled
  | cons c others =>
    rw [spelled] at munch unblank length
    rw [List.cons_append] at munch ⊢
    have taken := (munch_lexemeAt terminals c (others ++ rest)).unique munch
    rw [read?_solid (unblank c List.mem_cons_self) taken (munch.pos named),
      ← List.cons_append, List.drop_left' length]

/-- The tokens of names with blanks between them are these names. -/
theorem read?_written (named : ∀ terminal ∈ terminals, terminal.name ≠ "")
    (solid : ∀ terminal ∈ terminals, ∀ c ∈ terminal.name.toList, isBlank c = false)
    (known : ∀ word ∈ words, ∃ terminal ∈ terminals, terminal.name = word.name)
    (spaced : Spaced words ending) (position : Nat) :
    read? (trials terminals) position (written words ending).toList =
      some (placed position words) := by
  induction words generalizing position with
  | nil =>
    rw [written, ← List.append_nil ending.toList, read?_gap spaced.ending]
    rfl
  | cons word words ih =>
    obtain ⟨listed, others⟩ := List.forall_mem_cons.mp known
    rw [toList_written_cons, read?_gap (spaced.blank word List.mem_cons_self), String.length_toList,
      read?_name named solid listed spaced.stops, ih others spaced.tail, placed]
    rfl

end Token

namespace Grammar

variable {grammar : Grammar} {rules : List Rule} {start : Option String} {policy : NamePolicy}

/-- No terminal of a grammar made by rules has the name of the empty string or of the end. -/
theorem free_of_mem_terminals (built : ofRules rules start policy = .ok grammar) :
    ∀ terminal ∈ grammar.terminals, Symbol.isReservedName terminal.name = false := by
  have fit := fit_of_ofRules built
  obtain ⟨spelled, same, productions, -⟩ := ofRules_of_fit fit
  obtain rfl : spelled = grammar := by
    rw [built] at same
    exact (Except.ok.inj same).symm
  intro terminal member
  rw [terminals, rhsTerminals, productions, Rule.rhsTerminals_numbered,
    List.mem_eraseDups] at member
  obtain ⟨name, used, rfl⟩ := List.mem_map.mp member
  obtain ⟨written, kept⟩ := List.mem_filter.mp used
  obtain ⟨rule, listed, there⟩ := List.mem_flatMap.mp written
  change Symbol.isReservedName name = false
  -- such a name is left out of right-hand sides, or refused there
  by_contra reserved
  rcases Rule.isReservedName_iff.mp (Bool.not_eq_false _ ▸ reserved) with rfl | rfl
  · simp at kept
  · exact fit (.reservedRight listed there)

end Grammar

namespace ParseTable

open Text SpacedName

/-- Names of terminals with blanks between them are parsed as text as they are as a list. -/
theorem parse_spaced_names {grammar : Grammar} {rules : List Rule} {start : Option String}
    {policy : NamePolicy} (built : Grammar.ofRules rules start policy = .ok grammar)
    (named : ∀ terminal ∈ grammar.terminals, terminal.name ≠ "")
    (solid : ∀ terminal ∈ grammar.terminals, ∀ c ∈ terminal.name.toList, isBlank c = false)
    {words : List SpacedName} {ending : String} (spaced : Spaced words ending)
    (known : ∀ word ∈ words, .terminal word.name ∈ grammar.terminals) :
    Token.tokenize? grammar.terminals (written words ending) = some (placed 0 words) ∧
      (Token.tokenize? grammar.terminals (written words ending)).map (List.map Token.type) =
        some (words.map SpacedName.name) ∧
      ∀ table : ParseTable, table.grammar = grammar → ∀ limit,
        table.parseText? limit (written words ending) =
            table.parseNames? limit (words.map SpacedName.name) ∧
          table.parseText? limit (written words ending) =
            table.parseSymbols? limit (words.map fun word => .terminal word.name) := by
  have cut : Token.tokenize? grammar.terminals (written words ending) = some (placed 0 words) :=
    Token.read?_written named solid (fun word member => ⟨_, known word member, rfl⟩) spaced 0
  have free : ∀ name ∈ words.map SpacedName.name, Symbol.isReservedName name = false := by
    intro name member
    obtain ⟨word, listed, rfl⟩ := List.mem_map.mp member
    exact Grammar.free_of_mem_terminals built _ (known word listed)
  refine ⟨cut, ?_, ?_⟩
  · rw [cut, Option.map_some, map_type_placed]
  · rintro table rfl limit
    have read : table.parseText? limit (written words ending) =
        table.parseNames? limit (words.map SpacedName.name) := by
      simp only [parseText?, tokenize?, cut, Option.bind_eq_bind, Option.bind_some, map_type_placed]
    refine ⟨read, ?_⟩
    rw [read, parseNames?, mapM_inputSymbol_eq_ok free, List.map_map]
    rfl

/-- Sequences of two names one of which begins the other. -/
def nestedRules : List Rule :=
  [⟨"S", ["a", "S"]⟩, ⟨"S", ["ab", "S"]⟩, ⟨"S", []⟩]

def nestedTable : ParseTable where
  grammar :=
    { productions :=
        [⟨1, .nonterminal "S", [.terminal "a", .nonterminal "S"]⟩,
         ⟨2, .nonterminal "S", [.terminal "ab", .nonterminal "S"]⟩,
         ⟨3, .nonterminal "S", [.epsilon]⟩]
      start := .nonterminal "S"
      sound := by decide }
  cells :=
    [⟨.nonterminal "S", .terminal "a", 1⟩, ⟨.nonterminal "S", .terminal "ab", 2⟩,
     ⟨.nonterminal "S", .endOfInput, 3⟩]
  conflicts := []

theorem parse_spaced_names_nested :
    Grammar.ofRules nestedRules none {} = .ok nestedTable.grammar ∧
      (Token.tokenize? nestedTable.grammar.terminals " ab a\n\tab ").map (List.map Token.type) =
        some ["ab", "a", "ab"] ∧
      nestedTable.parseText? 9 " ab a\n\tab " = nestedTable.parseNames? 9 ["ab", "a", "ab"] ∧
      ∃ result, nestedTable.parseText? 9 " ab a\n\tab " = some (.ok result) ∧
        result.verdict = .accept := by
  have built : Grammar.ofRules nestedRules none {} = .ok nestedTable.grammar := by cbv
  let words : List SpacedName := [⟨" ", "ab"⟩, ⟨" ", "a"⟩, ⟨"\n\t", "ab"⟩]
  have gaps : ∀ word ∈ words, word.gap.toList.all isBlank = true := by decide
  have spaced : Spaced words " " :=
    ⟨fun word member => List.all_eq_true.mp (gaps word member), by decide, by simp [isBlank]⟩
  have text : written words " " = " ab a\n\tab " := rfl
  have letters : ∀ terminal ∈ nestedTable.grammar.terminals,
      terminal.name.toList.all (isBlank · = false) = true := by decide
  have solid : ∀ terminal ∈ nestedTable.grammar.terminals, ∀ c ∈ terminal.name.toList,
      isBlank c = false := by simpa using letters
  obtain ⟨-, cut, parsed⟩ := parse_spaced_names built (by decide) solid spaced (by decide)
  obtain ⟨listed, -⟩ := parsed nestedTable rfl 9
  rw [text] at cut listed
  refine ⟨built, cut, listed, ?_⟩
  rw [listed]
  exact ⟨_, rfl, rfl⟩

end ParseTable

end Predictive
