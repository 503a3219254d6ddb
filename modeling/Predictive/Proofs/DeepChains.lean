import Predictive.Proofs.Exchanges
import Predictive.Proofs.PrintedRules
import Predictive.Proofs.RuleLists

/-! Deep chains. In a chain each name stands for the next one alone, and the last name for the empty
string. Such a chain is written as a text of plain names, but however much room there is for
calls, the descents for a longer chain need more. -/

set_option autoImplicit false

namespace Predictive

open Source

namespace Rule

variable {lhsNames : List String} {rules : List Rule} {id : Int}

/-- A left-hand side of one rule only is that of one production. -/
theorem filter_numbered (distinct : (rules.map Rule.lhs).Nodup) {rule : Rule} (known : rule ∈ rules) :
    ∃ place, (numbered lhsNames id rules).filter (·.lhs = .nonterminal rule.lhs) =
      [⟨place, .nonterminal rule.lhs, normalizeRhs (rule.rhs.map (symbol lhsNames))⟩] := by
  induction rules generalizing id with
  | nil => cases known
  | cons first rest ih =>
    obtain ⟨alone, distinct⟩ := List.nodup_cons.mp distinct
    have kind (name : String) : Symbol.nonterminal name = .nonterminal rule.lhs ↔ name = rule.lhs :=
      Grammar.nonterminal_injective.eq_iff
    rcases List.mem_cons.mp known with rfl | later
    · have absent : (numbered lhsNames (id + 1) rest).filter (·.lhs = .nonterminal rule.lhs) = [] := by
        refine List.filter_eq_nil_iff.mpr fun production member => ?_
        have left := List.mem_map_of_mem (f := Production.lhs) member
        rw [map_lhs_numbered] at left
        obtain ⟨other, inside, same⟩ := List.mem_map.mp left
        rw [decide_eq_true_iff, ← same, kind]
        intro equal
        exact alone (equal ▸ List.mem_map_of_mem inside)
      refine ⟨id, ?_⟩
      rw [numbered, List.filter_cons_of_pos (by simp), absent]
    · obtain ⟨place, only⟩ := ih distinct later
      have apart : first.lhs ≠ rule.lhs := fun same => alone (same ▸ List.mem_map_of_mem later)
      refine ⟨place, ?_⟩
      rw [numbered, List.filter_cons_of_neg (by simpa [kind] using apart), only]

end Rule

namespace Grammar.Chain

/-- The name of a link: one letter more than the links before it. -/
def linkName (i : Nat) : String :=
  String.ofList (List.replicate (i + 1) 'A')

/-- The rule of a link in a chain of `count` links behind the first. -/
def linkRule (count i : Nat) : Rule :=
  ⟨linkName i, [if i < count then linkName (i + 1) else Symbol.epsilon.name]⟩

/-- The rules of all links but the first. -/
def restRules (count : Nat) : List Rule :=
  (List.range' 1 count).map (linkRule count)

def rules (count : Nat) : List Rule :=
  linkRule count 0 :: restRules count

theorem toList_linkName (i : Nat) : (linkName i).toList = List.replicate (i + 1) 'A' :=
  String.toList_ofList

theorem linkName_injective : Function.Injective linkName := by
  intro i j same
  have lengths := congrArg (fun name : String => name.toList.length) same
  simpa [toList_linkName] using lengths

variable {count i : Nat}

theorem rules_eq (count : Nat) : rules count = (List.range' 0 (count + 1)).map (linkRule count) :=
  rfl

theorem mem_rules {rule : Rule} : rule ∈ rules count ↔ ∃ i ≤ count, linkRule count i = rule := by
  simp only [rules_eq, List.mem_map, List.mem_range'_1, Nat.zero_le, true_and, Nat.zero_add,
    Nat.lt_succ_iff]

theorem map_lhs_rules (count : Nat) :
    (rules count).map Rule.lhs = (List.range' 0 (count + 1)).map linkName := by
  rw [rules_eq, List.map_map]
  rfl

theorem nodup_rules (count : Nat) : ((rules count).map Rule.lhs).Nodup := by
  rw [map_lhs_rules]
  exact List.Nodup.map linkName_injective List.nodup_range'

theorem linkName_mem (known : i ≤ count) : linkName i ∈ (rules count).map Rule.lhs :=
  List.mem_map_of_mem (mem_rules.mpr ⟨i, known, rfl⟩)

theorem isLeftName_linkName (i : Nat) : IsLeftName (linkName i).toList := by
  have letter : startsName 'A' = true ∧ continuesName 'A' = true := by decide
  rw [toList_linkName, List.replicate_succ]
  exact ⟨letter.1, by simp [letter.2]⟩

theorem isPlainName_linkName (i : Nat) : IsPlainName (linkName i) := by
  have only {c : Char} (member : c ∈ (linkName i).toList) : c = 'A' := by
    rw [toList_linkName] at member
    exact List.eq_of_mem_replicate member
  have inside : 'A' ∈ (linkName i).toList := by simp [toList_linkName]
  have slashless (c : Char) : ¬['/', c] <:+: (linkName i).toList := by
    intro part
    exact absurd (only (part.subset List.mem_cons_self)) (by decide)
  have other {name : String} (without : 'A' ∉ name.toList) : linkName i ≠ name := by
    rintro rfl
    exact without inside
  refine ⟨⟨List.ne_nil_of_mem inside, fun c member => ?_, ?_⟩, fun member => ?_, slashless '/',
    slashless '*', fun member => ?_, other (by decide)⟩
  · rw [only member]
    decide
  · rw [toList_linkName, List.replicate_succ]
    exact (by decide : isQuote 'A' = false)
  · exact absurd (only member) (by decide)
  · have without : ∀ spelling ∈ spellings, 'A' ∉ spelling.toList := by decide
    exact other (without _ member) rfl

theorem writable_rules (count : Nat) :
    ∀ rule ∈ rules count, rule.Writable ((rules count).map Rule.lhs) := by
  intro rule member
  obtain ⟨i, known, rfl⟩ := mem_rules.mp member
  refine ⟨isLeftName_linkName i, ?_⟩
  by_cases inner : i < count
  · refine .inr ⟨by simp [linkRule], fun name written => ?_⟩
    obtain rfl : name = linkName (i + 1) := by simpa [linkRule, inner] using written
    exact ⟨isPlainName_linkName _, fun _ => linkName_mem inner⟩
  · exact .inl (by simp [linkRule, inner])

/-! ### The grammar of a chain -/

/-- What a link stands for: the next link, or the empty string. -/
theorem rhs_linkRule (count i : Nat) :
    normalizeRhs ((linkRule count i).rhs.map (Rule.symbol ((rules count).map Rule.lhs))) =
      [if i < count then .nonterminal (linkName (i + 1)) else .epsilon] := by
  by_cases inner : i < count
  · have visible : linkName (i + 1) ≠ Symbol.epsilon.name :=
      fun same => (isPlainName_linkName (i + 1)).unaliased (same ▸ epsilon_mem_spellings)
    have known := linkName_mem (Nat.succ_le_of_lt inner)
    simp only [linkRule, inner, if_true, List.map_cons, List.map_nil, Rule.symbol, if_neg visible,
      List.contains_iff_mem.mpr known]
    exact normalizeRhs_eq_self (by simp) (by simp [Symbol.nonterminal, Symbol.epsilon])
  · simp only [linkRule, inner, if_false]
    rfl

variable {grammar : Grammar}
  (made : grammar.productions = Rule.numbered ((rules count).map Rule.lhs) 1 (rules count))
include made

theorem of_rules : grammar.Chain (fun i => .nonterminal (linkName i)) count where
  kind _ _ := rfl
  distinct i _ j _ same := linkName_injective (congrArg Symbol.name same)
  next i inner := by
    have known : linkRule count i ∈ rules count := mem_rules.mpr ⟨i, Nat.le_of_lt inner, rfl⟩
    obtain ⟨place, only⟩ := Rule.filter_numbered (nodup_rules count) known
    rw [rhs_linkRule, if_pos inner, ← made] at only
    exact ⟨place, only⟩

theorem nonTerminals_rules : grammar.nonTerminals =
    .nonterminal (linkName 0) :: (restRules count).map fun rule => .nonterminal rule.lhs := by
  have distinct := (nodup_rules count).map nonterminal_injective
  rw [List.map_map] at distinct
  rw [nonTerminals, lhsSymbols, made, Rule.map_lhs_numbered]
  exact eraseDups_of_nodup distinct

theorem terminals_rules : grammar.terminals = [] := by
  rw [terminals, rhsTerminals, made, List.filter_eq_nil_iff.mpr]
  · rfl
  · intro symbol member
    obtain ⟨production, listed, written⟩ := List.mem_flatMap.mp member
    obtain ⟨rule, known, rhs⟩ := Rule.rhs_of_mem_numbered listed
    obtain ⟨i, _, rfl⟩ := mem_rules.mp known
    rw [rhs, rhs_linkRule, List.mem_singleton] at written
    rw [written]
    split
    · simp [Symbol.nonterminal, Symbol.isTerminal]
    · simp

end Grammar.Chain

/-! ### Texts of chains -/

/-- Whatever room there is for calls, there is a text of which the analysis under the descents needs
more; it has no terminals. -/
theorem Analysis.exists_ofText_not_fits {room : CallRoom} (bounded : room.Bounded)
    {options : GrammarOptions} (usual : options.epsilonAliases = spellings)
    (spaced : options.compactSymbols = false)
    (descends : Strategy.ofName options.strategy = .ok .recursive) :
    ∃ text analysis, Analysis.ofText options text (some "A") = .ok analysis ∧
      analysis.fits room = false ∧ analysis.grammar.terminals = [] := by
  obtain ⟨limit, refused⟩ := bounded
  let loaded := Grammar.numbered (Grammar.Chain.linkRule limit 0) (Grammar.Chain.restRules limit)
  have writable := Grammar.Chain.writable_rules limit
  -- the text is that of the printed rules, which is read back as it was written
  have read : Grammar.ofText options
      ("\n".intercalate (loaded.productions.map (Production.textWith " "))) none = .ok loaded :=
    congrArg Prod.fst (Grammar.load_numbered writable
      (fun rule known => readsBack_spaced usual spaced (writable rule known)) [])
  have listed : "A" ∈ loaded.nonTerminals.map Symbol.name := by
    rw [Grammar.Chain.nonTerminals_rules rfl]
    exact List.mem_cons_self
  obtain ⟨started, begun, same⟩ := Grammar.ofText_of_listed read listed
  have made : started.productions = _ := Grammar.productions_withStart begun
  refine ⟨_, _, Analysis.ofText_eq_ok same descends, ?_, ?_⟩
  · rw [Analysis.fits_new]
    exact Grammar.not_fits_of_chain (Grammar.Chain.of_rules made) (Nat.le_refl limit)
      (fun calls many => (refused calls many).1) (Grammar.Chain.nonTerminals_rules made)
      (by simp [Grammar.Chain.restRules])
  · rw [Analysis.grammar_new]
    exact Grammar.Chain.terminals_rules made

end Predictive
