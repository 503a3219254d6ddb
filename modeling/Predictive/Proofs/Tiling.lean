import Predictive.Parsing.Token
import Mathlib.Data.List.Permutation

/-! What the tokens of a text are. They stand side by side in the text with nothing but blanks
between them, each begins with a character that is not blank, and each is the longest name that the
text goes on with there, or one character where there is none. No other tokens do. -/

set_option autoImplicit false

namespace Predictive

namespace Token

open Text

/-- The position behind the last character of a token. -/
def stop (token : Token) : Int :=
  token.position + token.value.length

def Covers (token : Token) (position : Int) : Prop :=
  token.position ≤ position ∧ position < token.stop

/-- What a token takes from the text before it: the longest name with which the text begins or, if
it begins with none, its first character. -/
inductive Munch (terminals : List Symbol) (text : List Char) (lexeme : String) : Prop where
  | name (known : ∃ terminal ∈ terminals, terminal.name = lexeme)
      (begins : lexeme.toList <+: text)
      (longest : ∀ terminal ∈ terminals, terminal.name.toList <+: text →
        terminal.name.length ≤ lexeme.length)
  | character (unnamed : ∀ terminal ∈ terminals, ¬ terminal.name.toList <+: text)
      (first : ∃ c rest, text = c :: rest ∧ lexeme = String.singleton c)

/-- A token at its place in a text. -/
structure Reads (terminals : List Symbol) (text : List Char) (token : Token) : Prop where
  inside : 0 ≤ token.position ∧ token.stop ≤ text.length
  type_eq : token.type = token.value
  spelled : (text.drop token.position.toNat).take token.value.length = token.value.toList
  solid : ∃ c, text[token.position.toNat]? = some c ∧ isBlank c = false
  longest : Munch terminals (text.drop token.position.toNat) token.value

/-- Tokens that cover a text from a position on, blanks apart. -/
structure Tiles (terminals : List Symbol) (text : List Char) (start : Nat)
    (tokens : List Token) : Prop where
  reads : ∀ token ∈ tokens, token.Reads terminals text
  since : ∀ token ∈ tokens, (start : Int) ≤ token.position
  ordered : tokens.Pairwise fun left right =>
    left.position < right.position ∧ left.stop ≤ right.position
  /-- What no token covers is blank. -/
  blank : ∀ (index : Nat) (inside : index < text.length), start ≤ index →
    (∀ token ∈ tokens, ¬ token.Covers index) → isBlank text[index] = true

variable {terminals : List Symbol} {names : List (List Char)} {text rest : List Char}
  {left right lexeme : String} {start : Nat} {tokens : List Token} {c : Char}

/-! ### The order in which names are tried -/

theorem precedes_iff : precedes left right = true ↔
    right.length < left.length ∨ (left.length = right.length ∧ left ≤ right) := by
  simp [precedes]

theorem precedes_trans (left middle right : String) (first : precedes left middle = true)
    (second : precedes middle right = true) : precedes left right = true := by
  rw [precedes_iff] at first second ⊢
  rcases first with shorter | ⟨equal, before⟩
  · left
    omega
  · rcases second with shorter | ⟨same, behind⟩
    · left
      omega
    · exact .inr ⟨equal.trans same, String.le_trans before behind⟩

theorem precedes_total (left right : String) :
    (precedes left right || precedes right left) = true := by
  rw [Bool.or_eq_true, precedes_iff, precedes_iff]
  rcases Nat.lt_trichotomy left.length right.length with less | equal | more
  · exact .inr (.inl less)
  · rcases String.le_total left right with before | behind
    · exact .inl (.inr ⟨equal, before⟩)
    · exact .inr (.inr ⟨equal.symm, behind⟩)
  · exact .inl (.inl more)

/-- The names in the order in which they are tried. -/
def trials (terminals : List Symbol) : List (List Char) :=
  (trialOrder terminals).map String.toList

theorem mem_trials {name : List Char} :
    name ∈ trials terminals ↔ ∃ terminal ∈ terminals, terminal.name.toList = name := by
  simp [trials, trialOrder]

/-- Longer names are tried first. -/
theorem trials_pairwise :
    (trials terminals).Pairwise fun left right => right.length ≤ left.length := by
  have sorted := List.pairwise_mergeSort precedes_trans precedes_total
    ((terminals.map Symbol.name).eraseDups)
  refine List.pairwise_map.mpr (sorted.imp fun early => ?_)
  rw [precedes_iff] at early
  rw [String.length_toList, String.length_toList]
  omega

/-! ### What is taken at one place -/

theorem Munch.unique (first : Munch terminals text left) (second : Munch terminals text right) :
    left = right := by
  cases first with
  | name known begins longest =>
    obtain ⟨terminal, member, rfl⟩ := known
    cases second with
    | name others starts bound =>
      obtain ⟨other, counterpart, rfl⟩ := others
      -- two longest names are of one length, so they are one beginning of the text
      have same : terminal.name.length = other.name.length :=
        Nat.le_antisymm (bound terminal member begins) (longest other counterpart starts)
      rw [← String.length_toList, ← String.length_toList] at same
      have inside := List.prefix_of_prefix_length_le begins starts (Nat.le_of_eq same)
      exact String.toList_inj.mp (inside.eq_of_length same)
    | character unnamed _ => exact absurd begins (unnamed terminal member)
  | character unnamed first =>
    cases second with
    | name known begins _ =>
      obtain ⟨terminal, member, rfl⟩ := known
      exact absurd begins (unnamed terminal member)
    | character _ second =>
      obtain ⟨c, rest, rfl, rfl⟩ := first
      obtain ⟨other, _, same, rfl⟩ := second
      rw [(List.cons.inj same).1]

theorem Munch.pos (named : ∀ terminal ∈ terminals, terminal.name ≠ "")
    (munch : Munch terminals text lexeme) : 0 < lexeme.length := by
  cases munch with
  | name known _ _ =>
    obtain ⟨terminal, member, rfl⟩ := known
    exact Nat.pos_of_ne_zero fun empty => named terminal member (String.length_eq_zero_iff.mp empty)
  | character _ first =>
    obtain ⟨c, _, _, rfl⟩ := first
    simp

theorem Munch.isPrefix (munch : Munch terminals text lexeme) : lexeme.toList <+: text := by
  cases munch with
  | name _ begins _ => exact begins
  | character _ first =>
    obtain ⟨c, rest, rfl, rfl⟩ := first
    rw [String.toList_singleton]
    exact ⟨rest, rfl⟩

/-- The first name in the order of trial that a text goes on with is the longest. -/
theorem munch_lexemeAt (terminals : List Symbol) (c : Char) (rest : List Char) :
    Munch terminals (c :: rest) (String.ofList (lexemeAt (trials terminals) c rest)) := by
  unfold lexemeAt
  cases found : nameAt? (trials terminals) (c :: rest) with
  | none =>
    refine .character (fun terminal member begins => ?_) ⟨c, rest, rfl, rfl⟩
    have refused := List.find?_eq_none.mp found _ (mem_trials.mpr ⟨terminal, member, rfl⟩)
    exact refused (List.isPrefixOf_iff_prefix.mpr begins)
  | some lexeme =>
    obtain ⟨taken, before, behind, order, refused⟩ := List.find?_eq_some_iff_append.mp found
    have begins : lexeme <+: c :: rest := List.isPrefixOf_iff_prefix.mp taken
    obtain ⟨terminal, member, rfl⟩ : ∃ terminal ∈ terminals, terminal.name.toList = lexeme :=
      mem_trials.mp (by simp [order])
    rw [Option.getD_some, String.ofList_toList]
    refine .name ⟨terminal, member, rfl⟩ begins fun other counterpart starts => ?_
    have place := mem_trials.mpr ⟨other, counterpart, rfl⟩
    have sorted : (trials terminals).Pairwise fun left right => right.length ≤ left.length :=
      trials_pairwise
    rw [order] at place sorted
    rcases List.mem_append.mp place with early | late
    · have refusal := refused _ early
      rw [List.isPrefixOf_iff_prefix.mpr starts] at refusal
      cases refusal
    · -- what comes later in the order is no longer than what was found
      have bounds := (List.pairwise_cons.mp (List.pairwise_append.mp sorted).2.1).1
      rw [← String.length_toList, ← String.length_toList]
      rcases List.mem_cons.mp late with same | behind
      · exact Nat.le_of_eq (congrArg List.length same)
      · exact bounds _ behind

/-! ### Tilings from one position on -/

theorem Reads.getElem? {token : Token} (reads : token.Reads terminals text) :
    ∃ index : Nat, token.position = index ∧ index < text.length ∧
      ∃ c, text[index]? = some c ∧ isBlank c = false := by
  obtain ⟨nonneg, _⟩ := reads.inside
  obtain ⟨c, found, solid⟩ := reads.solid
  obtain ⟨inside, _⟩ := List.getElem?_eq_some_iff.mp found
  exact ⟨token.position.toNat, by omega, inside, c, found, solid⟩

/-- Behind the end of the text there are no tokens. -/
theorem tiles_iff_of_end (ended : text.length ≤ start) :
    Tiles terminals text start tokens ↔ tokens = [] := by
  constructor
  · intro tiles
    refine List.eq_nil_iff_forall_not_mem.mpr fun token member => ?_
    obtain ⟨index, place, inside, _⟩ := (tiles.reads token member).getElem?
    have since := tiles.since token member
    omega
  · rintro rfl
    refine ⟨by simp, by simp, .nil, fun index inside later _ => ?_⟩
    omega

/-- A blank belongs to no token. -/
theorem tiles_iff_of_blank (found : text[start]? = some c) (blank : isBlank c = true) :
    Tiles terminals text start tokens ↔ Tiles terminals text (start + 1) tokens := by
  constructor
  · intro tiles
    refine ⟨tiles.reads, fun token member => ?_, tiles.ordered, fun index inside later =>
      tiles.blank index inside (by omega)⟩
    have since := tiles.since token member
    obtain ⟨index, place, _, other, there, solid⟩ := (tiles.reads token member).getElem?
    -- a token that starts here would start with the blank
    have elsewhere : index ≠ start := by
      rintro rfl
      rw [found] at there
      rw [← Option.some.inj there, blank] at solid
      cases solid
    omega
  · intro tiles
    refine ⟨tiles.reads, fun token member => ?_, tiles.ordered,
      fun index inside later uncovered => ?_⟩
    · have since := tiles.since token member
      omega
    · by_cases here : index = start
      · subst here
        rw [(List.getElem?_eq_some_iff.mp found).2]
        exact blank
      · exact tiles.blank index inside (by omega) uncovered

/-- At any other character the first token is what is taken there. -/
theorem tiles_iff_of_solid (found : text[start]? = some c) (solid : isBlank c = false)
    (munch : Munch terminals (text.drop start) lexeme) (some : 0 < lexeme.length) :
    Tiles terminals text start tokens ↔
      ∃ later, tokens = ⟨lexeme, lexeme, start⟩ :: later ∧
        Tiles terminals text (start + lexeme.length) later := by
  obtain ⟨inside, here⟩ := List.getElem?_eq_some_iff.mp found
  constructor
  · intro tiles
    -- the character is covered, and only by a token that starts with it
    obtain ⟨token, member, covers⟩ : ∃ token ∈ tokens, token.Covers start := by
      by_contra uncovered
      push Not at uncovered
      have blank := tiles.blank start inside (Nat.le_refl _) uncovered
      rw [here, solid] at blank
      cases blank
    cases tokens with
    | nil => cases member
    | cons first later =>
      obtain ⟨behind, apart⟩ := List.pairwise_cons.mp tiles.ordered
      have since := tiles.since first List.mem_cons_self
      have place : first.position = start := by
        rcases List.mem_cons.mp member with rfl | late
        · have low := covers.1
          omega
        · have order := (behind token late).1
          have low := covers.1
          omega
      have reads := tiles.reads first List.mem_cons_self
      have taken : first.value = lexeme := by
        have longest := reads.longest
        rw [place, Int.toNat_natCast] at longest
        exact longest.unique munch
      obtain rfl : first = ⟨lexeme, lexeme, start⟩ := by
        obtain ⟨type, value, position⟩ := first
        have named : type = value := reads.type_eq
        subst taken place named
        rfl
      refine ⟨later, rfl, fun token member => tiles.reads token (List.mem_cons_of_mem _ member),
        fun token member => (behind token member).2, apart, fun index inside far uncovered => ?_⟩
      apply tiles.blank index inside (by omega)
      intro token member covers
      rcases List.mem_cons.mp member with rfl | late
      · have high : (index : Int) < start + lexeme.length := covers.2
        omega
      · exact uncovered token late covers
  · rintro ⟨later, rfl, tiles⟩
    have bounded : start + lexeme.length ≤ text.length := by
      have short := munch.isPrefix.length_le
      rw [List.length_drop, String.length_toList] at short
      omega
    have reads : Reads terminals text ⟨lexeme, lexeme, start⟩ := by
      refine ⟨⟨Int.natCast_nonneg _, ?_⟩, rfl, ?_, ⟨c, found, solid⟩, munch⟩
      · change (start : Int) + lexeme.length ≤ text.length
        omega
      · rw [← String.length_toList]
        exact (List.prefix_iff_eq_take.mp munch.isPrefix).symm
    refine ⟨List.forall_mem_cons.mpr ⟨reads, tiles.reads⟩,
      List.forall_mem_cons.mpr ⟨Int.le_refl _, fun token member => ?_⟩,
      List.pairwise_cons.mpr ⟨fun token member => ?_, tiles.ordered⟩,
      fun index inside later uncovered => ?_⟩
    · have since := tiles.since token member
      omega
    · have since := tiles.since token member
      change (start : Int) < token.position ∧ (start : Int) + lexeme.length ≤ token.position
      omega
    · obtain ⟨away, others⟩ := List.forall_mem_cons.mp uncovered
      apply tiles.blank index inside _ others
      change ¬ ((start : Int) ≤ index ∧ (index : Int) < start + lexeme.length) at away
      omega

/-! ### The tokens of a text -/

theorem lexemeAt_ne_nil (filled : [] ∉ names) (c : Char) (rest : List Char) :
    lexemeAt names c rest ≠ [] := by
  unfold lexemeAt
  cases found : nameAt? names (c :: rest) with
  | none => simp
  | some name =>
    rintro rfl
    exact filled (List.mem_of_find?_eq_some found)

/-- Where no name is empty, every turn passes over some of the text. -/
theorem exists_scan? (filled : [] ∉ names) {turns : Nat} (position : Nat)
    (enough : text.length ≤ turns) : ∃ tokens, scan? names turns position text = some tokens := by
  induction turns generalizing position text with
  | zero =>
    rw [List.length_eq_zero_iff.mp (Nat.le_zero.mp enough)]
    exact ⟨[], rfl⟩
  | succ turns ih =>
    cases text with
    | nil => exact ⟨[], rfl⟩
    | cons c rest =>
      rw [List.length_cons] at enough
      cases blank : isBlank c with
      | true =>
        obtain ⟨tokens, read⟩ := ih (position + 1) (by omega : rest.length ≤ turns)
        exact ⟨tokens, by simp [scan?, blank, read]⟩
      | false =>
        have taken := List.length_pos_of_ne_nil (lexemeAt_ne_nil filled c rest)
        have left : ((c :: rest).drop (lexemeAt names c rest).length).length ≤ turns := by
          simp
          omega
        obtain ⟨tokens, read⟩ := ih (position + (lexemeAt names c rest).length) left
        simp only [scan?, blank, Bool.false_eq_true, if_false, read, Option.map_some]
        exact ⟨_, rfl⟩

/-- Tokens are read from a position if and only if they tile the text from there. -/
theorem read?_eq_some_iff (named : ∀ terminal ∈ terminals, terminal.name ≠ "") (start : Nat)
    (tokens : List Token) :
    read? (trials terminals) start (text.drop start) = some tokens ↔
      Tiles terminals text start tokens := by
  -- by the length of the text that is left
  induction remaining : text.length - start using Nat.strongRecOn
    generalizing start tokens with
  | ind remaining ih =>
    cases left : text.drop start with
    | nil =>
      rw [tiles_iff_of_end (List.drop_eq_nil_iff.mp left), read?_nil, Option.some.injEq, eq_comm]
    | cons c rest =>
      have found : text[start]? = some c := by
        rw [← List.head?_drop, left]
        rfl
      have inside := (List.getElem?_eq_some_iff.mp found).1
      have behind : text.drop (start + 1) = rest := by
        rw [← List.drop_drop, left]
        rfl
      cases blank : isBlank c with
      | true =>
        rw [tiles_iff_of_blank found blank, read?_blank blank, ← behind]
        exact ih (text.length - (start + 1)) (by omega) (start + 1) tokens rfl
      | false =>
        obtain ⟨lexeme, taken⟩ : ∃ lexeme,
            String.ofList (lexemeAt (trials terminals) c rest) = lexeme := ⟨_, rfl⟩
        have munch : Munch terminals (c :: rest) lexeme := taken ▸ munch_lexemeAt terminals c rest
        have positive := munch.pos named
        have shorter (later : List Token) :=
          ih (text.length - (start + lexeme.length)) (by omega) (start + lexeme.length) later rfl
        -- the name taken here is not empty, so less text is left behind it
        rw [tiles_iff_of_solid found blank (left ▸ munch) positive,
          read?_solid blank taken positive, ← left, List.drop_drop, Option.map_eq_some_iff]
        constructor
        · rintro ⟨later, read, rfl⟩
          exact ⟨later, rfl, (shorter later).mp read⟩
        · rintro ⟨later, rfl, tiles⟩
          exact ⟨later, (shorter later).mpr tiles, rfl⟩

/-- The tokens of a text are read in no more turns than it has characters, and they are the only
tokens that tile it. -/
theorem tokenize_tiles (terminals : List Symbol)
    (named : ∀ terminal ∈ terminals, terminal.name ≠ "") (text : String) :
    ∃ tokens, tokenize? terminals text = some tokens ∧
      (∀ turns, text.length ≤ turns →
        scan? (trials terminals) turns 0 text.toList = some tokens) ∧
      ∀ others, Tiles terminals text.toList 0 others ↔ others = tokens := by
  have filled : [] ∉ trials terminals := by
    rw [mem_trials]
    rintro ⟨terminal, member, empty⟩
    exact named terminal member (String.toList_eq_nil_iff.mp empty)
  obtain ⟨tokens, read⟩ := exists_scan? filled 0 (Nat.le_refl text.toList.length)
  refine ⟨tokens, read, fun turns enough => ?_, fun others => ?_⟩
  · rw [← String.length_toList] at enough
    rw [← read]
    exact scan?_turns enough (Nat.le_refl _) 0
  · rw [← read?_eq_some_iff named, List.drop_zero, read?, read, Option.some.injEq, eq_comm]

/-- Names that begin one another, and names with blanks inside and in front. -/
def nestedSample : List Symbol :=
  [.terminal "a", .terminal "ab", .terminal "b c", .terminal " a"]

theorem tokenize_tiles_nested :
    (∀ terminal ∈ nestedSample, terminal.name ≠ "") ∧
      tokenize? nestedSample "ab a b cb" =
        some [⟨"ab", "ab", 0⟩, ⟨"a", "a", 3⟩, ⟨"b c", "b c", 5⟩, ⟨"b", "b", 8⟩] ∧
      scan? (trials nestedSample) 9 0 "ab a b cb".toList =
        some [⟨"ab", "ab", 0⟩, ⟨"a", "a", 3⟩, ⟨"b c", "b c", 5⟩, ⟨"b", "b", 8⟩] ∧
      Tiles nestedSample "ab a b cb".toList 0
        [⟨"ab", "ab", 0⟩, ⟨"a", "a", 3⟩, ⟨"b c", "b c", 5⟩, ⟨"b", "b", 8⟩] := by
  have named : ∀ terminal ∈ nestedSample, terminal.name ≠ "" := by decide
  have read : tokenize? nestedSample "ab a b cb" =
      some [⟨"ab", "ab", 0⟩, ⟨"a", "a", 3⟩, ⟨"b c", "b c", 5⟩, ⟨"b", "b", 8⟩] := by cbv
  obtain ⟨tokens, same, ends, tiles⟩ := tokenize_tiles nestedSample named "ab a b cb"
  rw [read, Option.some.injEq] at same
  subst same
  exact ⟨named, read, ends 9 (by decide), (tiles _).mpr rfl⟩

end Token

end Predictive
