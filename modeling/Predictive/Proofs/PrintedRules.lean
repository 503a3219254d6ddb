import Predictive.Proofs.CleanText
import Predictive.Proofs.RuleGrammars
import Predictive.Source.Loader
import Mathlib.Data.List.Infix

/-! Printing a grammar and loading it again. Rules whose names can be told apart in a text are read
from the lines of their productions as they were, with spaces between the names or, for names of one
character, without; so the grammar that is loaded is the one that was printed. -/

set_option autoImplicit false

namespace Predictive

open Text

/-- The text of a production with a separator between the names of its right-hand side. -/
def Production.textWith (separator : String) (production : Production) : String :=
  production.lhs.name ++ " -> " ++ separator.intercalate (production.rhs.map Symbol.name)

namespace Source

/-- The usual spellings of the empty string. -/
def spellings : List String :=
  ({} : GrammarOptions).epsilonAliases

/-- A name that is read as itself on the right of an arrow. -/
@[mk_iff]
structure IsPlainName (name : String) : Prop where
  word : IsBareWord name.toList
  single : '|' ∉ name.toList
  lineComment : ¬['/', '/'] <:+: name.toList
  blockComment : ¬['/', '*'] <:+: name.toList
  unaliased : name ∉ spellings
  other : name ≠ Symbol.endOfInput.name

instance : DecidablePred IsPlainName :=
  fun name => decidable_of_iff' _ (isPlainName_iff name)

end Source

namespace Rule

open Source

/-- The text of a rule with a separator between the names of its right-hand side. -/
def textWith (separator : String) (rule : Rule) : String :=
  rule.lhs ++ " -> " ++ separator.intercalate rule.rhs

/-- A rule that can be told from its text: the empty string, or plain names of which those with an
uppercase initial have rules. -/
@[mk_iff]
structure Writable (lhsNames : List String) (rule : Rule) : Prop where
  left : IsLeftName rule.lhs.toList
  right : rule.rhs = [Symbol.epsilon.name] ∨
    rule.rhs ≠ [] ∧ ∀ name ∈ rule.rhs, IsPlainName name ∧
      (startsUppercase name = true → name ∈ lhsNames)

/-- A right-hand side of one-character names that can be told apart without separators. -/
@[mk_iff]
structure Condensable (rule : Rule) : Prop where
  short : ∀ name ∈ rule.rhs, name.length = 1
  unquoted : ("".intercalate rule.rhs).toList.any isQuote = false
  lineComment : ¬['/', '/'] <:+: ("".intercalate rule.rhs).toList
  blockComment : ¬['/', '*'] <:+: ("".intercalate rule.rhs).toList
  unaliased : "".intercalate rule.rhs ∉ spellings

instance (lhsNames : List String) : DecidablePred (Writable lhsNames) :=
  fun rule => decidable_of_iff' _ (writable_iff lhsNames rule)

instance : DecidablePred Condensable :=
  fun rule => decidable_of_iff' _ (condensable_iff rule)

end Rule

/-! ### Right-hand sides -/

namespace Source

variable {options : GrammarOptions} {names : List String}

theorem unalias_eq_self (usual : options.epsilonAliases = spellings) {name : String}
    (unaliased : name ∉ spellings) : unalias options name = name := by
  unfold unalias
  rw [usual, if_neg (by simpa using unaliased)]

theorem epsilon_mem_spellings : Symbol.epsilon.name ∈ spellings := by decide

theorem isRightText_epsilon : IsRightText Symbol.epsilon.name.toList := by
  have letters : Symbol.epsilon.name.toList = ['ε'] := by decide
  have solid : isBlank 'ε' = false := by decide
  rw [letters]
  exact ⟨by simp, by simpa using solid, by simpa using solid, by decide, by decide,
    List.isChain_singleton 'ε'⟩

theorem alternativeNames_epsilon (usual : options.epsilonAliases = spellings) :
    alternativeNames options Symbol.epsilon.name.toList = [Symbol.epsilon.name] := by
  unfold alternativeNames
  rw [String.ofList_toList, usual, if_pos]
  simp [epsilon_mem_spellings]

theorem isRightText_spaced (some : names ≠ []) (plain : ∀ name ∈ names, IsPlainName name) :
    IsRightText (joinWith ' ' (names.map String.toList)) := by
  have filled : ∀ piece ∈ names.map String.toList, piece ≠ [] := by
    simpa using fun name member => (plain name member).word.some
  have solid : ∀ c, (∃ piece ∈ names.map String.toList, c ∈ piece) → isBlank c = false := by
    rintro c ⟨piece, member, inside⟩
    obtain ⟨name, known, rfl⟩ := List.mem_map.mp member
    exact (plain name known).word.solid c inside
  refine ⟨joinWith_ne_nil (by simpa using some) filled,
    fun c first => solid c (mem_of_head?_joinWith filled first),
    fun c last => solid c (mem_of_getLast?_joinWith filled last), ?_, ?_, ?_⟩
  · intro member
    rcases mem_joinWith member with same | ⟨piece, known, inside⟩
    · cases same
    · obtain ⟨name, listed, rfl⟩ := List.mem_map.mp known
      exact (plain name listed).single inside
  · intro member
    rcases mem_joinWith member with same | broken
    · cases same
    · exact absurd (solid '\n' broken) (by decide)
  · refine isChain_joinWith (harmless_before (by decide) (by decide)) (harmless_after (by decide))
      fun piece member => ?_
    obtain ⟨name, known, rfl⟩ := List.mem_map.mp member
    exact isChain_harmless (plain name known).lineComment (plain name known).blockComment

/-- A single name is no spelling of the empty string, and several have a space between them. -/
theorem ofList_spaced_not_mem (some : names ≠ []) (plain : ∀ name ∈ names, IsPlainName name) :
    String.ofList (joinWith ' ' (names.map String.toList)) ∉ spellings := by
  have solid : ∀ spelling ∈ spellings, ' ' ∉ spelling.toList := by decide
  cases names with
  | nil => exact absurd rfl some
  | cons name rest =>
    cases rest with
    | nil => simpa [joinWith] using (plain name (by simp)).unaliased
    | cons next more =>
      intro member
      have spaceless := solid _ member
      simp [joinWith] at spaceless

theorem alternativeNames_spaced (usual : options.epsilonAliases = spellings)
    (spaced : options.compactSymbols = false) (some : names ≠ [])
    (plain : ∀ name ∈ names, IsPlainName name) :
    alternativeNames options (joinWith ' ' (names.map String.toList)) = names := by
  have unaliased := ofList_spaced_not_mem some plain
  have words : ∀ piece ∈ names.map String.toList, IsBareWord piece := by
    simpa using fun name member => (plain name member).word
  have filled := (isRightText_spaced some plain).some
  unfold alternativeNames symbolNames
  rw [usual, if_neg (by simp [filled, unaliased]), spaced, Bool.false_and, if_neg (by simp),
    readWords_joinWith words, List.map_map, List.map_map]
  refine (List.map_congr_left fun name member => ?_).trans (List.map_id' names)
  simp [Word.name, unalias_eq_self usual (plain name member).unaliased]

/-- Names of one character are the letters of their text. -/
theorem exists_letters (short : ∀ name ∈ names, name.length = 1) :
    ∃ letters : List Char, names = letters.map String.singleton ∧
      ("".intercalate names).toList = letters := by
  have flat : ∀ pieces : List (List Char), [].intercalate pieces = pieces.flatten := by
    intro pieces
    induction pieces with
    | nil => rfl
    | cons piece rest ih =>
      cases rest with
      | nil => simp
      | cons next more => rw [List.intercalate_cons_cons, ih]; simp
  rw [String.toList_intercalate, String.toList_empty, flat]
  induction names with
  | nil => exact ⟨[], rfl, rfl⟩
  | cons name rest ih =>
    obtain ⟨first, others⟩ := List.forall_mem_cons.mp short
    obtain ⟨c, letter⟩ := List.length_eq_one_iff.mp (String.length_toList.trans first)
    obtain ⟨letters, rfl, same⟩ := ih others
    have single : name = String.singleton c :=
      String.toList_inj.mp (letter.trans (String.toList_singleton c).symm)
    refine ⟨c :: letters, by rw [List.map_cons, single], ?_⟩
    rw [List.map_cons, List.flatten_cons, same, letter]
    rfl

section
variable {rule : Rule} (condensable : rule.Condensable) (some : rule.rhs ≠ [])
  (plain : ∀ name ∈ rule.rhs, IsPlainName name)
include condensable some plain

theorem isRightText_condensed : IsRightText ("".intercalate rule.rhs).toList := by
  have harmless := isChain_harmless condensable.lineComment condensable.blockComment
  obtain ⟨letters, names, text⟩ := exists_letters condensable.short
  rw [text] at harmless ⊢
  rw [names] at some plain
  have solid : ∀ c ∈ letters, isBlank c = false := by
    intro c member
    exact (plain _ (List.mem_map_of_mem member)).word.solid c (by simp)
  refine ⟨by simpa using some, fun c first => solid c (List.mem_of_head? first),
    fun c last => solid c (List.mem_of_getLast? last), ?_, ?_, harmless⟩
  · intro member
    exact (plain _ (List.mem_map_of_mem member)).single (by simp)
  · intro member
    exact absurd (solid '\n' member) (by decide)

theorem alternativeNames_condensed (usual : options.epsilonAliases = spellings)
    (compact : options.compactSymbols = true) :
    alternativeNames options ("".intercalate rule.rhs).toList = rule.rhs := by
  have filled := (isRightText_condensed condensable some plain).some
  have unquoted := condensable.unquoted
  obtain ⟨letters, names, text⟩ := exists_letters condensable.short
  have unaliased : String.ofList letters ∉ spellings := by
    rw [← text, String.ofList_toList]
    exact condensable.unaliased
  rw [text] at filled unquoted ⊢
  have whole : letters.any (fun c => isBlank c || isQuote c) = false := by
    refine List.any_eq_false.mpr fun c member => ?_
    have solid := (plain (String.singleton c)
      (names ▸ List.mem_map_of_mem member)).word.solid c (by simp)
    simp [solid, List.any_eq_false.mp unquoted c member]
  unfold alternativeNames symbolNames
  rw [usual, if_neg (by simp [filled, unaliased]), compact, whole, if_pos (by rfl), names]
  refine List.map_congr_left fun c member => ?_
  exact unalias_eq_self usual (plain _ (names ▸ List.mem_map_of_mem member)).unaliased

end

/-! ### Lines -/

section
variable {separator : String} {rule : Rule} {rules : List Rule}

/-- The right-hand side of a rule is read from its text as it was. -/
structure ReadsBack (options : GrammarOptions) (separator : String) (rule : Rule) : Prop where
  left : IsLeftName rule.lhs.toList
  text : IsRightText (separator.intercalate rule.rhs).toList
  names : alternativeNames options (separator.intercalate rule.rhs).toList = rule.rhs

theorem readsBack_epsilon (usual : options.epsilonAliases = spellings)
    (left : IsLeftName rule.lhs.toList) (empty : rule.rhs = [Symbol.epsilon.name]) :
    ReadsBack options separator rule := by
  have text : separator.intercalate rule.rhs = Symbol.epsilon.name := by
    rw [empty, String.intercalate_singleton]
  refine ⟨left, ?_, ?_⟩
  · rw [text]
    exact isRightText_epsilon
  · rw [text, alternativeNames_epsilon usual, empty]

theorem readsBack_spaced (usual : options.epsilonAliases = spellings)
    (spaced : options.compactSymbols = false) {lhsNames : List String}
    (writable : rule.Writable lhsNames) : ReadsBack options " " rule := by
  rcases writable.right with empty | ⟨some, each⟩
  · exact readsBack_epsilon usual writable.left empty
  · have plain : ∀ name ∈ rule.rhs, IsPlainName name := fun name member => (each name member).1
    have text : (" ".intercalate rule.rhs).toList = joinWith ' ' (rule.rhs.map String.toList) := by
      rw [String.toList_intercalate, joinWith_eq_intercalate]
      rfl
    refine ⟨writable.left, ?_, ?_⟩
    · rw [text]
      exact isRightText_spaced some plain
    · rw [text, alternativeNames_spaced usual spaced some plain]

theorem readsBack_condensed (usual : options.epsilonAliases = spellings)
    (compact : options.compactSymbols = true) {lhsNames : List String}
    (writable : rule.Writable lhsNames)
    (condensable : rule.rhs = [Symbol.epsilon.name] ∨ rule.Condensable) :
    ReadsBack options "" rule := by
  rcases writable.right with empty | ⟨some, each⟩
  · exact readsBack_epsilon usual writable.left empty
  · rcases condensable with empty | condensable
    · exact readsBack_epsilon usual writable.left empty
    · have plain : ∀ name ∈ rule.rhs, IsPlainName name := fun name member => (each name member).1
      exact ⟨writable.left, isRightText_condensed condensable some plain,
        alternativeNames_condensed condensable some plain usual compact⟩

/-- Rules that can be read back are what their lines say. -/
theorem rules_lines (some : rules ≠ []) (each : ∀ rule ∈ rules, ReadsBack options separator rule) :
    Source.rules options ("\n".intercalate (rules.map (Rule.textWith separator))) = .ok rules := by
  let line : Rule → List Char := fun rule =>
    arrowLine rule.lhs.toList (separator.intercalate rule.rhs).toList
  have written : ("\n".intercalate (rules.map (Rule.textWith separator))).toList =
      joinWith '\n' (rules.map line) := by
    rw [String.toList_intercalate, joinWith_eq_intercalate, List.map_map]
    congr 1
    refine List.map_congr_left fun rule _ => ?_
    simp [line, Rule.textWith, arrowLine]
  have alone : ∀ text ∈ rules.map line, StandsAlone text := by
    intro text member
    obtain ⟨rule, known, rfl⟩ := List.mem_map.mp member
    exact standsAlone_arrowLine (each rule known).left (each rule known).text
  have back : ∀ rule ∈ rules, statementRules options (line rule) = [rule] := by
    intro rule known
    rw [statementRules_arrowLine (each rule known).left (each rule known).text,
      (each rule known).names, String.ofList_toList]
  unfold Source.rules
  rw [written, statements_clean (by simpa using some) alone]
  dsimp only
  rw [List.flatMap_map, List.flatMap_congr back, List.flatMap_singleton']

end

end Source

/-! ### Grammars -/

namespace Source

/-- No reserved name starts as a left-hand name does. -/
theorem IsLeftName.not_reserved {name : String} (left : IsLeftName name.toList) :
    Symbol.isReservedName name = false := by
  have other : ∀ reserved : String, reserved.toList.head?.any startsName = false →
      name ≠ reserved := by
    rintro _ stray rfl
    obtain ⟨first, rest, letters, starts, _⟩ := left.exists_cons
    simp [letters, starts] at stray
  have empty := other Symbol.epsilon.name (by decide)
  have ended := other Symbol.endOfInput.name (by decide)
  simp [Symbol.isReservedName, empty, ended]

end Source

namespace Rule

open Source

section
variable {lhsNames : List String} {rule : Rule} {rules : List Rule} {policy : NamePolicy}

/-- The rules of names with an uppercase initial are all that a text may be asked for. -/
theorem Writable.allows (writable : rule.Writable lhsNames)
    (lenient : ∀ name, policy.mustHaveRules name = true → startsUppercase name = true) :
    ∀ name ∈ rule.rhs, policy.Allows lhsNames name := by
  intro name member
  rcases writable.right with empty | ⟨_, each⟩
  · exact .inl (by simpa [empty] using member)
  · obtain ⟨plain, ruled⟩ := each name member
    exact .inr ⟨plain.other, fun must => ruled (lenient name must)⟩

/-- The production of a rule names what the rule does. -/
theorem Writable.names (writable : rule.Writable lhsNames) :
    (normalizeRhs (rule.rhs.map (symbol lhsNames))).map Symbol.name = rule.rhs := by
  rcases writable.right with empty | ⟨some, each⟩
  · rw [empty]
    rfl
  · have visible : .epsilon ∉ rule.rhs.map (symbol lhsNames) := by
      intro member
      obtain ⟨name, known, same⟩ := List.mem_map.mp member
      refine (each name known).1.unaliased ?_
      rw [← name_symbol lhsNames name, same]
      exact epsilon_mem_spellings
    rw [normalizeRhs_eq_self (by simpa using some) visible, List.map_map]
    exact (List.map_congr_left fun name _ => name_symbol lhsNames name).trans (List.map_id' rule.rhs)

/-- The productions of rules are printed as the rules are. -/
theorem map_textWith_numbered (writable : ∀ rule ∈ rules, rule.Writable lhsNames)
    (separator : String) (id : Int) :
    (numbered lhsNames id rules).map (Production.textWith separator) =
      rules.map (textWith separator) := by
  induction rules generalizing id with
  | nil => rfl
  | cons rule rest ih =>
    obtain ⟨first, others⟩ := List.forall_mem_cons.mp writable
    rw [numbered, List.map_cons, List.map_cons, ih others]
    simp only [Production.textWith, textWith, first.names]
    rfl

end

end Rule

namespace Grammar

open Source

variable {first : Rule} {rest : List Rule}
  (writable : ∀ rule ∈ first :: rest, rule.Writable ((first :: rest).map Rule.lhs))
include writable

theorem ofRules_of_writable {policy : NamePolicy} (undeclared : policy.declared = none)
    (lenient : ∀ name, policy.mustHaveRules name = true → startsUppercase name = true) :
    ofRules (first :: rest) none policy = .ok (numbered first rest) := by
  refine ofRules_eq_ok undeclared ?_ fun rule known => (writable rule known).allows lenient
  intro name member
  obtain ⟨rule, known, rfl⟩ := List.mem_map.mp member
  exact (writable rule known).left.not_reserved

/-- Rules that can be read back are loaded from the productions they make. -/
theorem load_numbered {options : GrammarOptions} {separator : String}
    (each : ∀ rule ∈ first :: rest, ReadsBack options separator rule) (earlier : List Rule) :
    (⟨options, earlier⟩ : Loader).load ("\n".intercalate
        ((numbered first rest).productions.map (Production.textWith separator))) none =
      (.ok (numbered first rest), ⟨options, first :: rest⟩) := by
  have lines : Source.rules options ("\n".intercalate
      ((numbered first rest).productions.map (Production.textWith separator))) =
        .ok (first :: rest) := by
    rw [numbered, Rule.map_textWith_numbered writable]
    exact rules_lines (by simp) each
  have made : ofRules (first :: rest) none (namePolicy options) = .ok (numbered first rest) :=
    ofRules_of_writable writable rfl fun _ must => (Bool.and_eq_true_iff.mp must).2
  unfold Loader.load ofText
  rw [lines]
  dsimp only
  rw [made]
  rfl

end Grammar

/-- The productions of rules that can be told from their text make up a text from which the same
grammar is loaded, and the loader is left with the same rules. Under the option for compact symbols
this is so without spaces, if each right-hand side can be told from its characters. Only where there
are no rules, there is no grammar to print. -/
theorem Loader.load_printed {rules : List Rule}
    (writable : ∀ rule ∈ rules, rule.Writable (rules.map Rule.lhs)) :
    (rules = [] ∧ Grammar.ofRules rules none {} = .error .noProductions) ∨
    ∃ grammar, Grammar.ofRules rules none {} = .ok grammar ∧
      (∀ earlier, (⟨{}, earlier⟩ : Loader).load
        ("\n".intercalate (grammar.productions.map Production.text)) none =
          (.ok grammar, ⟨{}, rules⟩)) ∧
      ((∀ rule ∈ rules, rule.rhs = [Symbol.epsilon.name] ∨ rule.Condensable) →
        ∀ earlier, (⟨{ compactSymbols := true }, earlier⟩ : Loader).load
          ("\n".intercalate (grammar.productions.map (Production.textWith ""))) none =
            (.ok grammar, ⟨{ compactSymbols := true }, rules⟩)) := by
  cases rules with
  | nil => exact .inl ⟨rfl, rfl⟩
  | cons first rest =>
    have spaced : Production.text = Production.textWith " " := rfl
    refine .inr ⟨Grammar.numbered first rest,
      Grammar.ofRules_of_writable writable rfl (by simp), ?_, ?_⟩
    · rw [spaced]
      exact Grammar.load_numbered writable fun rule known =>
        Source.readsBack_spaced rfl rfl (writable rule known)
    · intro condensable
      exact Grammar.load_numbered writable fun rule known =>
        Source.readsBack_condensed rfl rfl (writable rule known) (condensable rule known)

theorem Loader.load_printed_arrows :
    (∃ grammar,
      Grammar.ofRules [⟨"s'", ["->", "s'", "a:=b", "/x", "ε'"]⟩, ⟨"s'", ["ε"]⟩] none {} =
        .ok grammar ∧
      (⟨{}, []⟩ : Loader).load ("\n".intercalate (grammar.productions.map Production.text)) none =
        (.ok grammar, ⟨{}, [⟨"s'", ["->", "s'", "a:=b", "/x", "ε'"]⟩, ⟨"s'", ["ε"]⟩]⟩)) ∧
    ∃ grammar, Grammar.ofRules [⟨"s_", ["-", ">", "=", "/"]⟩, ⟨"s_", ["ε"]⟩] none {} = .ok grammar ∧
      (⟨{ compactSymbols := true }, []⟩ : Loader).load
        ("\n".intercalate (grammar.productions.map (Production.textWith ""))) none =
          (.ok grammar, ⟨{ compactSymbols := true },
            [⟨"s_", ["-", ">", "=", "/"]⟩, ⟨"s_", ["ε"]⟩]⟩) := by
  constructor
  · obtain ⟨nothing, _⟩ | ⟨grammar, made, spaced, _⟩ :=
      @Loader.load_printed [⟨"s'", ["->", "s'", "a:=b", "/x", "ε'"]⟩, ⟨"s'", ["ε"]⟩] (by decide)
    · cases nothing
    exact ⟨grammar, made, spaced []⟩
  · obtain ⟨nothing, _⟩ | ⟨grammar, made, _, condensed⟩ :=
      @Loader.load_printed [⟨"s_", ["-", ">", "=", "/"]⟩, ⟨"s_", ["ε"]⟩] (by decide)
    · cases nothing
    exact ⟨grammar, made, condensed (by decide) []⟩

end Predictive
