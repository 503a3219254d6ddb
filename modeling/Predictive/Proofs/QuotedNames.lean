import Predictive.Proofs.Cleaning
import Predictive.Proofs.RuleLists

/-! Names between quotes. Quotes are looked at last, when comments are gone and the alternatives are
apart; so a bar between quotes separates alternatives, and what looks like a comment there is one.
Every other name is read as it is. -/

set_option autoImplicit false

namespace Predictive

namespace Source

open Text

variable {options : GrammarOptions} {c quote mark : Char}
  {text inside name left right rest after : List Char}

/-! ### Comments between quotes -/

theorem withoutComments_append (slashless : '/' ∉ left) (right : List Char) :
    withoutComments (left ++ right) = left ++ withoutComments right := by
  rw [withoutComments, dropLineComments_append slashless, dropBlockComments_append slashless,
    withoutComments]

theorem withoutComments_eq_self_iff :
    withoutComments text = text ↔ ¬ ['/', '/'] <:+: text ∧ Unclosed text := by
  constructor
  · intro same
    have apart := isChain_withoutComments text
    have unclosed := unclosed_withoutComments text
    rw [same] at apart unclosed
    exact ⟨isChain_apart.mp apart, unclosed⟩
  · rintro ⟨apart, unclosed⟩
    rw [withoutComments, dropLineComments_of_isChain (isChain_apart.mpr apart),
      dropBlockComments_of_unclosed unclosed]

theorem dropBlockComments_sublist (text : List Char) : (dropBlockComments text).Sublist text := by
  fun_induction dropBlockComments text with
  | case1 => exact .slnil
  | case2 rest after closed ih =>
    exact (ih.trans (suffix_of_afterBlock closed).sublist).trans ((List.sublist_cons_self _ _).trans
      (List.sublist_cons_self _ _))
  | case3 rest => exact List.Sublist.refl _
  | case4 c rest _ ih => exact ih.cons_cons c

theorem withoutComments_sublist (unbroken : '\n' ∉ text) : (withoutComments text).Sublist text := by
  have cut := dropBlockComments_sublist (dropLineComments text)
  rw [dropLineComments_eq_cutLineComment unbroken] at cut
  rw [withoutComments, dropLineComments_eq_cutLineComment unbroken]
  exact cut.trans (cutLineComment_begins text).sublist

theorem afterBlock?_concat (other : c ≠ '/') (text : List Char) :
    afterBlock? (text ++ [c]) = (afterBlock? text).map (· ++ [c]) := by
  fun_induction afterBlock? text with
  | case1 => exact afterBlock?_cons (by simp)
  | case2 rest => rfl
  | case3 first rest early ih =>
    rw [List.cons_append, afterBlock?_cons, ih]
    rintro rfl next
    cases rest with
    | nil => exact other (by simpa using next)
    | cons second more =>
      obtain rfl : second = '/' := by simpa using next
      exact early more rfl rfl

theorem dropBlockComments_concat (slash : c ≠ '/') (star : c ≠ '*') (text : List Char) :
    dropBlockComments (text ++ [c]) = dropBlockComments text ++ [c] := by
  fun_induction dropBlockComments text with
  | case1 => rw [List.nil_append, dropBlockComments_cons_of_ne slash, dropBlockComments]
  | case2 rest after closed ih =>
    have longer := afterBlock?_concat slash rest
    rw [closed] at longer
    exact (dropBlockComments_of_closed longer).trans ih
  | case3 rest never =>
    have longer := afterBlock?_concat slash rest
    rw [never] at longer
    exact dropBlockComments_of_open longer
  | case4 first rest early ih =>
    rw [List.cons_append, dropBlockComments, ih, List.cons_append]
    intro more first next
    cases rest with
    | nil => exact star (by simpa using (List.cons.inj next).1)
    | cons second others =>
      obtain ⟨rfl, _⟩ := List.cons.inj next
      exact early others first rfl

/-- A name between quotes. -/
def quoted (quote : Char) (inside : List Char) : List Char :=
  quote :: (inside ++ [quote])

theorem ne_of_isQuote (quotes : isQuote quote = true) (other : isQuote c = false) : quote ≠ c := by
  rintro rfl
  simp [quotes] at other

/-- A line comment between quotes takes the closing quote with it; a block comment leaves it. -/
theorem withoutComments_quoted (quotes : isQuote quote = true) (unbroken : '\n' ∉ inside) :
    withoutComments (quoted quote inside) =
      if ['/', '/'] <:+: inside then quote :: withoutComments inside
      else quoted quote (withoutComments inside) := by
  have slash : quote ≠ '/' := ne_of_isQuote quotes (by decide)
  have star : quote ≠ '*' := ne_of_isQuote quotes (by decide)
  have line : quote ≠ '\n' := ne_of_isQuote quotes (by decide)
  have whole : '\n' ∉ inside ++ [quote] := by simp [unbroken, line.symm]
  have behind : withoutComments (quoted quote inside) =
      quote :: withoutComments (inside ++ [quote]) :=
    @withoutComments_append [quote] (by simpa using slash.symm) _
  rw [behind, withoutComments, withoutComments, dropLineComments_eq_cutLineComment whole,
    dropLineComments_eq_cutLineComment unbroken]
  split
  · next opens => rw [cutLineComment_append_of_opening opens]
  · next closed =>
    have apart := isChain_apart.mpr closed
    have last : cutLineComment [quote] = [quote] := cutLineComment_eq_self (.singleton quote)
    rw [cutLineComment_append apart (by simpa using slash), last, cutLineComment_eq_self apart,
      dropBlockComments_concat slash star, quoted]

/-! ### One statement -/

theorem trim_arrowLine_right (named : IsLeftName name) (solid : isBlank c = false)
    (rest : List Char) :
    trim (arrowLine name (c :: rest)) = arrowLine name (trim (c :: rest)) := by
  obtain ⟨more, trimmed⟩ := exists_trim_cons solid rest
  obtain ⟨before, after, blanks, later, whole⟩ := exists_blanks_around_trim (c :: rest)
  have nothing : before = [] := by
    cases before with
    | nil => rfl
    | cons first before =>
      obtain rfl : c = first := (List.cons.inj whole).1
      simp [blanks c List.mem_cons_self] at solid
  have longer : arrowLine name (c :: rest) = arrowLine name (trim (c :: rest)) ++ after := by
    conv_lhs => rw [whole, nothing]
    simp [arrowLine]
  rw [longer, trim_append_blanks later]
  exact trim_arrowLine named (by simp [trimmed]) fun _ => isBlank_of_getLast?_trim

/-- The rules of one line are those of the alternatives between the bars that are left when the
comments are gone. -/
theorem rules_of_arrowLine {text : String} (options : GrammarOptions) (named : IsLeftName name)
    (unbroken : '\n' ∉ rest) (solid : isBlank c = false)
    (left : withoutComments text.toList = arrowLine name (c :: rest)) :
    Source.rules options text = .ok ((cutAt '|' (c :: rest)).map fun alternative =>
      ⟨String.ofList name, alternativeNames options (trim alternative)⟩) := by
  have single : '\n' ∉ arrowLine name (c :: rest) := by
    have line : c ≠ '\n' := by
      rintro rfl
      simp [isBlank] at solid
    simp [arrowLine, named.not_mem (c := '\n') (by decide) (by decide), line.symm, unbroken]
  have lines : cleanLines text.toList = [arrowLine name (trim (c :: rest))] := by
    rw [cleanLines_eq, left, cutAt_eq_singleton single, List.map_singleton,
      trim_arrowLine_right named solid, List.filter_singleton, isKept_arrowLine named]
    rfl
  have first : ∀ initial ∈ (trim (c :: rest)).head?, isBlank initial = false :=
    fun _ => isBlank_of_head?_trim
  have bar : isBlank '|' = false := by decide
  have pieces := congrArg (List.map fun alternative =>
    (⟨String.ofList name, alternativeNames options alternative⟩ : Rule))
    (map_trim_cutAt_trim bar (c :: rest))
  rw [List.map_map, List.map_map] at pieces
  rw [Source.rules, statements, cutAt_clean (by simp [lines]), lines, groupLines,
    if_pos (by simp [isHead, readHead?_arrowLine named first]), continueStatement]
  dsimp only
  rw [List.flatMap_singleton, statementRules_cut named first, trim_trim]
  exact congrArg Except.ok pieces

/-! ### Words -/

theorem splitAtMark?_append (absent : mark ∉ text) (after : List Char) :
    splitAtMark? mark (text ++ mark :: after) = some (text, after) := by
  induction text with
  | nil => simp [splitAtMark?]
  | cons c text ih =>
    obtain ⟨other, absent⟩ : mark ≠ c ∧ mark ∉ text := by simpa using absent
    simp [splitAtMark?, other.symm, ih absent]

theorem splitAtMark?_eq_none (absent : mark ∉ text) : splitAtMark? mark text = none := by
  cases found : splitAtMark? mark text with
  | none => rfl
  | some parts =>
    exact absurd (by rw [eq_of_splitAtMark found]; simp) absent

theorem isBlank_of_isQuote (quotes : isQuote quote = true) : isBlank quote = false := by
  rcases (by simpa [isQuote] using quotes : quote = '\'' ∨ quote = '"') with rfl | rfl <;> decide

section
variable (unaliased : ∀ spelling ∈ options.epsilonAliases, spelling.toList.head? ≠ some quote)
include unaliased

theorem not_contains_of_quote (rest : List Char) :
    options.epsilonAliases.contains (String.ofList (quote :: rest)) = false := by
  rw [Bool.eq_false_iff, Ne, List.contains_iff_mem]
  intro listed
  exact unaliased _ listed (by rw [String.toList_ofList]; rfl)

variable (quotes : isQuote quote = true)
include quotes

theorem alternativeNames_of_quote (rest : List Char) :
    alternativeNames options (quote :: rest) =
      (readWords (quote :: rest)).map (Word.name options) := by
  rw [alternativeNames, not_contains_of_quote unaliased, symbolNames]
  simp [quotes]

theorem alternativeNames_quoted (absent : quote ∉ inside) :
    alternativeNames options (quoted quote inside) = [String.ofList inside] := by
  have word : firstWord quote (inside ++ [quote]) = (.quoted inside, []) := by
    simp [firstWord, quotes, splitAtMark?_append absent]
  rw [quoted, alternativeNames_of_quote unaliased quotes, readWords.eq_def]
  dsimp only
  rw [if_neg (by simp [isBlank_of_isQuote quotes]), word, readWords_nil]
  rfl

/-- A quote that is never closed belongs to the first name. -/
theorem alternativeNames_open (absent : quote ∉ rest) :
    ∃ word others, alternativeNames options (quote :: rest) =
      String.ofList (quote :: word) :: others := by
  have word : firstWord quote rest =
      (.bare (quote :: rest.takeWhile isNotBlank), rest.dropWhile isNotBlank) := by
    simp [firstWord, quotes, splitAtMark?_eq_none absent]
  rw [alternativeNames_of_quote unaliased quotes, readWords.eq_def]
  dsimp only
  rw [if_neg (by simp [isBlank_of_isQuote quotes]), word, List.map_cons, Word.name, unalias,
    not_contains_of_quote unaliased]
  exact ⟨_, _, rfl⟩

end

end Source

/-! ### Grammars of one production -/

theorem Rule.rightSide_eq_terminal {lhsNames names : List String} {name : String}
    (right : rightSide lhsNames names = [.terminal name]) :
    names.filter (· ≠ Symbol.epsilon.name) = [name] := by
  unfold rightSide at right
  split at right
  · simp [Symbol.terminal, Symbol.epsilon] at right
  · have named := congrArg (List.map Symbol.name) right
    rw [List.map_map, List.map_congr_left (g := id), List.map_id] at named
    · exact named
    · intro other _
      dsimp only [Function.comp_apply]
      split <;> rfl

namespace Grammar

variable {rules : List Rule} {policy : NamePolicy} {lhs name : String}

/-- Only one rule, in which nothing but one name and the empty string is written, makes a grammar of
one production that is this name. -/
theorem ofRules_single_iff (undeclared : policy.declared = none)
    (lenient : ∀ name, policy.mustHaveRules name = false)
    (left : Symbol.isReservedName lhs = false) (inside : name ≠ Symbol.endOfInput.name)
    (other : name ≠ lhs) :
    (∃ grammar, ofRules rules none policy = .ok grammar ∧ grammar.start = .nonterminal lhs ∧
        grammar.productions = [⟨1, .nonterminal lhs, [.terminal name]⟩]) ↔
      ∃ names, rules = [⟨lhs, names⟩] ∧ names.filter (· ≠ Symbol.epsilon.name) = [name] := by
  constructor
  · rintro ⟨grammar, built, _, single⟩
    obtain ⟨_, again, productions, _⟩ := ofRules_of_fit (fit_of_ofRules built)
    obtain rfl := Except.ok.inj (built.symm.trans again)
    rw [single, Rule.numbered_eq_mapIdx] at productions
    match rules, productions with
    | [rule], productions =>
      obtain ⟨owner, right⟩ : Symbol.nonterminal rule.lhs = .nonterminal lhs ∧
          Rule.rightSide [rule.lhs] rule.rhs = [.terminal name] := by
        simpa [eq_comm] using productions
      obtain rfl : rule.lhs = lhs := nonterminal_injective owner
      exact ⟨rule.rhs, rfl, Rule.rightSide_eq_terminal right⟩
    | _ :: _ :: _, productions => simp at productions
  · rintro ⟨names, rfl, single⟩
    have allowed : ∀ rule ∈ [(⟨lhs, names⟩ : Rule)], ∀ used ∈ rule.rhs,
        policy.Allows [lhs] used := by
      intro rule listed used written
      obtain rfl := List.mem_singleton.mp listed
      by_cases empty : used = Symbol.epsilon.name
      · exact .inl empty
      · have kept : used ∈ names.filter (· ≠ Symbol.epsilon.name) := by simp [written, empty]
        rw [single, List.mem_singleton] at kept
        exact .inr ⟨by rwa [kept], by simp [lenient]⟩
    refine ⟨_, ofRules_eq_ok undeclared (by simpa using left) allowed, rfl, ?_⟩
    change Rule.numbered _ _ _ = _
    rw [Rule.numbered_eq_mapIdx, List.mapIdx_singleton, Rule.rightSide, single]
    simp [other]

end Grammar

namespace Loader

open Text Source

variable {loader : Loader} {name : String} {quote : Char}

/-- The text of one rule whose right-hand side is a name between quotes. -/
def quotedRule (quote : Char) (name : String) : String :=
  "S -> " ++ String.singleton quote ++ name ++ String.singleton quote

theorem toList_quotedRule (quote : Char) (name : String) :
    (quotedRule quote name).toList = arrowLine ['S'] (quoted quote name.toList) := by
  simp [quotedRule, arrowLine, quoted]

/-- What stands behind the arrow when the comments are gone. -/
def quotedRest (quote : Char) (name : String) : List Char :=
  withoutComments (quoted quote name.toList)

theorem exists_quotedRest (quotes : isQuote quote = true) (unbroken : '\n' ∉ name.toList) :
    ∃ rest, quotedRest quote name = quote :: rest ∧ '\n' ∉ rest := by
  have kept := withoutComments_sublist unbroken
  have line : quote ≠ '\n' := ne_of_isQuote quotes (by decide)
  rw [quotedRest, withoutComments_quoted quotes unbroken]
  split
  · exact ⟨_, rfl, fun inside => unbroken (kept.subset inside)⟩
  · refine ⟨_, rfl, fun inside => ?_⟩
    rcases List.mem_append.mp inside with inside | last
    · exact unbroken (kept.subset inside)
    · exact line (List.mem_singleton.mp last).symm

theorem rules_quotedRule (options : GrammarOptions) (quotes : isQuote quote = true)
    (unbroken : '\n' ∉ name.toList) :
    Source.rules options (quotedRule quote name) =
      .ok ((cutAt '|' (quotedRest quote name)).map fun alternative =>
        ⟨"S", alternativeNames options (trim alternative)⟩) := by
  obtain ⟨rest, left, single⟩ := exists_quotedRest quotes unbroken
  have cleaned : withoutComments (quotedRule quote name).toList =
      arrowLine ['S'] (quote :: rest) := by
    rw [toList_quotedRule, ← left]
    exact @withoutComments_append ['S', ' ', '-', '>', ' '] (by decide) _
  rw [left]
  exact rules_of_arrowLine options (by decide) single (isBlank_of_isQuote quotes) cleaned

theorem load_quotedRule_iff (quotes : isQuote quote = true) (unbroken : '\n' ∉ name.toList)
    (free : Symbol.isReservedName name = false) (other : name ≠ "S")
    (lenient : loader.options.strictNonterminals = false) :
    (∃ grammar, (loader.load (quotedRule quote name) none).1 = .ok grammar ∧
        grammar.start = .nonterminal "S" ∧
        grammar.productions = [⟨1, .nonterminal "S", [.terminal name]⟩]) ↔
      '|' ∉ quotedRest quote name ∧
        (alternativeNames loader.options (trim (quotedRest quote name))).filter
          (· ≠ Symbol.epsilon.name) = [name] := by
  have inside : name ≠ Symbol.endOfInput.name := by
    rintro rfl
    cases free
  have read := rules_quotedRule loader.options quotes unbroken
  obtain ⟨piece, pieces, cut⟩ :=
    List.exists_cons_of_ne_nil (cutAt_ne_nil '|' (quotedRest quote name))
  rw [cut, List.map_cons] at read
  unfold load Grammar.ofText
  rw [read]
  dsimp only
  rw [Grammar.ofRules_single_iff rfl (fun _ => by simp [namePolicy, lenient]) (by decide) inside
    other]
  constructor
  · rintro ⟨names, single, written⟩
    obtain ⟨rfl, none⟩ : alternativeNames loader.options (trim piece) = names ∧ pieces = [] := by
      simpa using single
    have whole := joinWith_cutAt '|' (quotedRest quote name)
    rw [cut, none, joinWith] at whole
    rw [← whole]
    exact ⟨not_mem_of_mem_cutAt (by rw [cut]; exact List.mem_cons_self), written⟩
  · rintro ⟨single, written⟩
    rw [cutAt_eq_singleton single] at cut
    obtain ⟨rfl, rfl⟩ := List.cons.inj cut
    exact ⟨_, rfl, written⟩

section
variable {options : GrammarOptions} (quotes : isQuote quote = true)
  (unbroken : '\n' ∉ name.toList) (absent : quote ∉ name.toList)
  (unaliased : ∀ spelling ∈ options.epsilonAliases, spelling.toList.head? ≠ some quote)
include quotes unbroken absent unaliased

/-- Without the closing quote, the opening one is part of the first name. -/
theorem names_ne_of_opening (opens : ['/', '/'] <:+: name.toList) :
    (alternativeNames options (trim (quotedRest quote name))).filter
      (· ≠ Symbol.epsilon.name) ≠ [name] := by
  have kept := (withoutComments_sublist unbroken).subset
  obtain ⟨more, trimmed⟩ :=
    exists_trim_cons (isBlank_of_isQuote quotes) (withoutComments name.toList)
  have alone : quote ∉ more := by
    have fewer := (isInfix_trim (quote :: withoutComments name.toList)).sublist.count_le quote
    rw [trimmed, List.count_cons_self, List.count_cons_self,
      List.count_eq_zero.mpr fun inside => absent (kept inside)] at fewer
    exact List.count_eq_zero.mp (by omega)
  obtain ⟨word, others, names⟩ := alternativeNames_open unaliased quotes alone
  have visible : String.ofList (quote :: word) ≠ Symbol.epsilon.name := by
    have other : quote ≠ 'ε' := ne_of_isQuote quotes (by decide)
    intro same
    have letters := congrArg String.toList same
    rw [String.toList_ofList] at letters
    exact other (List.cons.inj letters).1
  intro written
  have first : String.ofList (quote :: word) ∈ [name] := by
    rw [← written, quotedRest, withoutComments_quoted quotes unbroken, if_pos opens, trimmed, names]
    exact List.mem_filter.mpr ⟨List.mem_cons_self, decide_eq_true visible⟩
  rw [← List.mem_singleton.mp first, String.toList_ofList] at absent
  exact absent List.mem_cons_self

/-- Between two quotes, what is left when the comments are gone is the name. -/
theorem names_quotedRest (closed : ¬ ['/', '/'] <:+: name.toList) :
    quotedRest quote name = quoted quote (withoutComments name.toList) ∧
      alternativeNames options (trim (quotedRest quote name)) =
        [String.ofList (withoutComments name.toList)] := by
  have kept := (withoutComments_sublist unbroken).subset
  have solid := isBlank_of_isQuote quotes
  have left : quotedRest quote name = quoted quote (withoutComments name.toList) := by
    rw [quotedRest, withoutComments_quoted quotes unbroken, if_neg closed]
  refine ⟨left, ?_⟩
  have trimmed : trim (quotedRest quote name) = quotedRest quote name := by
    rw [left]
    refine trim_eq_self (by simpa [quoted] using solid) ?_
    rw [quoted, ← List.cons_append, List.getLast?_concat]
    simpa using solid
  rw [trimmed, left]
  exact alternativeNames_quoted unaliased quotes fun inside => absent (kept inside)

theorem single_iff_of_closed (visible : name ≠ Symbol.epsilon.name)
    (closed : ¬ ['/', '/'] <:+: name.toList) :
    '|' ∉ quotedRest quote name ∧
        (alternativeNames options (trim (quotedRest quote name))).filter
          (· ≠ Symbol.epsilon.name) = [name] ↔
      '|' ∉ name.toList ∧ Unclosed name.toList := by
  obtain ⟨left, names⟩ := names_quotedRest quotes unbroken absent unaliased closed
  have bar : '|' ≠ quote := (ne_of_isQuote quotes (by decide)).symm
  have single : '|' ∉ quotedRest quote name ↔ '|' ∉ withoutComments name.toList := by
    simp [left, quoted, bar]
  rw [single, names]
  constructor
  · rintro ⟨alone, written⟩
    have member : name ∈ [String.ofList (withoutComments name.toList)] :=
      List.mem_of_mem_filter (by rw [written]; exact List.mem_singleton_self name)
    have whole : withoutComments name.toList = name.toList := by
      conv_rhs => rw [List.mem_singleton.mp member, String.toList_ofList]
    rw [whole] at alone
    exact ⟨alone, (withoutComments_eq_self_iff.mp whole).2⟩
  · rintro ⟨alone, unclosed⟩
    rw [withoutComments_eq_self_iff.mpr ⟨closed, unclosed⟩, String.ofList_toList]
    exact ⟨alone, by simp [visible]⟩

end

/-- A name between quotes is a row of alternatives, one more than there are bars left when the
comments are gone. It is read as it is, and is the only production then, if and only if no bar, no
line comment and no block comment is in it. -/
theorem load_quoted (loader : Loader) (quotes : isQuote quote = true)
    (unbroken : '\n' ∉ name.toList) (absent : quote ∉ name.toList)
    (free : Symbol.isReservedName name = false) (other : name ≠ "S")
    (lenient : loader.options.strictNonterminals = false)
    (unaliased : ∀ spelling ∈ loader.options.epsilonAliases,
      spelling.toList.head? ≠ some quote) :
    (loader.load (quotedRule quote name) none).2.rules =
        (cutAt '|' (withoutComments (quoted quote name.toList))).map (fun alternative =>
          ⟨"S", alternativeNames loader.options (trim alternative)⟩) ∧
      ((∃ grammar, (loader.load (quotedRule quote name) none).1 = .ok grammar ∧
          grammar.start = .nonterminal "S" ∧
          grammar.productions = [⟨1, .nonterminal "S", [.terminal name]⟩]) ↔
        '|' ∉ name.toList ∧ ¬ ['/', '/'] <:+: name.toList ∧ Unclosed name.toList) := by
  constructor
  · rw [load, rules_quotedRule loader.options quotes unbroken]
    rfl
  · have visible : name ≠ Symbol.epsilon.name := by
      rintro rfl
      cases free
    rw [load_quotedRule_iff quotes unbroken free other lenient]
    by_cases opens : ['/', '/'] <:+: name.toList
    · refine iff_of_false ?_ ?_
      · rintro ⟨_, written⟩
        exact names_ne_of_opening quotes unbroken absent unaliased opens written
      · rintro ⟨_, closed, _⟩
        exact closed opens
    · rw [single_iff_of_closed quotes unbroken absent unaliased visible opens]
      exact and_congr_right fun _ => (and_iff_right opens).symm

/-- Blanks, an arrow, the sign of a comment line, a comment that is never closed and the other quote
between quotes. -/
theorem load_quoted_marks :
    let options : GrammarOptions := { compactSymbols := true, strictNonterminals := false }
    '\n' ∉ " a /*# -> 'ε".toList ∧ '"' ∉ " a /*# -> 'ε".toList ∧
      ∃ grammar, (({ options } : Loader).load "S -> \" a /*# -> 'ε\"" none).1 = .ok grammar ∧
        grammar.start = .nonterminal "S" ∧
        grammar.productions = [⟨1, .nonterminal "S", [.terminal " a /*# -> 'ε"]⟩] := by
  intro options
  have unbroken : '\n' ∉ " a /*# -> 'ε".toList := by decide
  have absent : '"' ∉ " a /*# -> 'ε".toList := by decide
  have unclosed : Unclosed " a /*# -> 'ε".toList := unclosed_of_absent (by decide +kernel)
  have written : quotedRule '"' " a /*# -> 'ε" = "S -> \" a /*# -> 'ε\"" := by decide +kernel
  have loaded := (load_quoted { options } rfl unbroken absent (by decide) (by decide) rfl
    (by decide)).2.mpr ⟨by decide, by decide +kernel, unclosed⟩
  rw [written] at loaded
  exact ⟨unbroken, absent, loaded⟩

/-- A bar between quotes separates two alternatives. -/
theorem quoted_bar_separates :
    ¬ ∀ name : String, name ≠ "" → '\n' ∉ name.toList → '\'' ∉ name.toList →
        Symbol.isReservedName name = false → name ≠ "S" → ∀ compact,
        ∃ grammar, (({ options := { compactSymbols := compact, strictNonterminals := false } } :
            Loader).load (quotedRule '\'' name) none).1 = .ok grammar ∧
          grammar.start = .nonterminal "S" ∧
          grammar.productions = [⟨1, .nonterminal "S", [.terminal name]⟩] := by
  intro claimed
  have read := claimed "|" (by decide) (by decide) (by decide) (by decide) (by decide) true
  obtain ⟨single, _⟩ := (load_quotedRule_iff rfl (by decide) (by decide) (by decide) rfl).mp read
  rw [quotedRest, withoutComments_eq_self (by decide)] at single
  exact single (by decide)

end Loader

end Predictive
