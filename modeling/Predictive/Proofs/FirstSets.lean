import Predictive.Proofs.Derivation
import Predictive.Proofs.Growth
import Predictive.Sets.First

/-! FIRST sets and derivations. Which symbols vanish and which leaves begin a symbol is said by
rules; every set that the passes compute follows these rules, and the final sets are closed under
them. So FIRST of a sequence holds the leaves with which the derived strings begin, and the empty
string if it is derived. -/

set_option autoImplicit false

namespace Predictive

namespace Grammar

/-- The symbols from which the empty string is derived. -/
inductive Vanishes (grammar : Grammar) : Symbol → Prop where
  | epsilon : grammar.Vanishes .epsilon
  | expand {production : Production} (declared : production ∈ grammar.productions)
      (all : ∀ symbol ∈ production.rhs, grammar.Vanishes symbol) : grammar.Vanishes production.lhs

/-- The symbols from which a string is derived that begins with a leaf. -/
inductive Begins (grammar : Grammar) (leaf : Symbol) : Symbol → Prop where
  | self (isLeaf : leaf.IsLeaf) : grammar.Begins leaf leaf
  | expand {production : Production} (declared : production ∈ grammar.productions)
      {before after : List Symbol} {symbol : Symbol}
      (split : production.rhs = before ++ symbol :: after)
      (vanish : ∀ other ∈ before, grammar.Vanishes other) (begins : grammar.Begins leaf symbol) :
      grammar.Begins leaf production.lhs

/-- What FIRST of a sequence is meant to hold: the empty string if all of it vanishes, and the
leaves that begin a symbol before which all vanishes. -/
def Opens (grammar : Grammar) (element : Symbol) (symbols : List Symbol) : Prop :=
  (element = .epsilon ∧ ∀ symbol ∈ symbols, grammar.Vanishes symbol) ∨
    ∃ before symbol after, symbols = before ++ symbol :: after ∧
      (∀ other ∈ before, grammar.Vanishes other) ∧ grammar.Begins element symbol

variable {grammar : Grammar}

theorem Begins.isLeaf {leaf symbol : Symbol} (begins : grammar.Begins leaf symbol) :
    leaf.IsLeaf := by
  induction begins with
  | self isLeaf => exact isLeaf
  | expand _ _ _ _ ih => exact ih

theorem Begins.visible {leaf symbol : Symbol} (begins : grammar.Begins leaf symbol) :
    symbol ≠ .epsilon := by
  cases begins with
  | self isLeaf => exact isLeaf.2
  | expand declared => exact Symbol.ne_epsilon_of_isNonterminal (isNonterminal_lhs declared)

theorem derives_nil_of_all {symbols : List Symbol}
    (each : ∀ symbol ∈ symbols, grammar.Derives (withoutEpsilon [symbol]) []) :
    grammar.Derives (withoutEpsilon symbols) [] := by
  induction symbols with
  | nil => exact .refl _
  | cons first rest ih =>
    have split : withoutEpsilon (first :: rest) =
        withoutEpsilon [first] ++ withoutEpsilon rest := withoutEpsilon_append [first] rest
    rw [split]
    exact (each first (by simp)).append
      (ih fun symbol member => each symbol (List.mem_cons_of_mem _ member))

theorem Vanishes.derives {symbol : Symbol} (vanishes : grammar.Vanishes symbol) :
    grammar.Derives (withoutEpsilon [symbol]) [] := by
  induction vanishes with
  | epsilon => exact .refl _
  | expand declared _ ih =>
    rw [withoutEpsilon_cons (Symbol.ne_epsilon_of_isNonterminal (isNonterminal_lhs declared))]
    exact (Derives.of_production declared).trans (derives_nil_of_all ih)

/-- A leaf that begins a symbol behind vanishing ones begins a string derived from them all. -/
theorem derives_of_begins {leaf symbol : Symbol} {before after : List Symbol}
    (vanish : ∀ other ∈ before, grammar.Vanishes other) (visible : symbol ≠ .epsilon)
    {rest : List Symbol} (derived : grammar.Derives [symbol] (leaf :: rest)) :
    grammar.Derives (withoutEpsilon (before ++ symbol :: after))
      (leaf :: (rest ++ withoutEpsilon after)) := by
  rw [withoutEpsilon_append, withoutEpsilon_cons visible]
  have front := derives_nil_of_all fun other member => (vanish other member).derives
  exact front.append (derived.append_right (withoutEpsilon after))

theorem Begins.derives {leaf symbol : Symbol} (begins : grammar.Begins leaf symbol) :
    ∃ rest, grammar.Derives [symbol] (leaf :: rest) := by
  induction begins with
  | self => exact ⟨[], .refl _⟩
  | @expand production declared before after symbol split vanish begins ih =>
    obtain ⟨rest, derived⟩ := ih
    refine ⟨rest ++ withoutEpsilon after, (Derives.of_production declared).trans ?_⟩
    rw [split]
    exact derives_of_begins vanish begins.visible derived

theorem Opens.derives_nil {symbols : List Symbol} (opens : grammar.Opens .epsilon symbols) :
    grammar.Derives (withoutEpsilon symbols) [] := by
  rcases opens with ⟨_, all⟩ | ⟨_, _, _, _, _, begins⟩
  · exact derives_nil_of_all fun symbol member => (all symbol member).derives
  · exact absurd rfl begins.isLeaf.2

theorem Opens.derives {leaf : Symbol} {symbols : List Symbol} (opens : grammar.Opens leaf symbols)
    (visible : leaf ≠ .epsilon) :
    leaf.IsLeaf ∧ ∃ rest, grammar.Derives (withoutEpsilon symbols) (leaf :: rest) := by
  rcases opens with ⟨same, _⟩ | ⟨before, symbol, after, rfl, vanish, begins⟩
  · exact absurd same visible
  · obtain ⟨rest, derived⟩ := begins.derives
    exact ⟨begins.isLeaf, _, derives_of_begins vanish begins.visible derived⟩

theorem Opens.of_vanishing {element first : Symbol} {rest : List Symbol}
    (vanishes : grammar.Vanishes first) (opens : grammar.Opens element rest) :
    grammar.Opens element (first :: rest) := by
  rcases opens with ⟨rfl, all⟩ | ⟨before, symbol, after, rfl, vanish, begins⟩
  · exact .inl ⟨rfl, List.forall_mem_cons.mpr ⟨vanishes, all⟩⟩
  · exact .inr ⟨first :: before, symbol, after, rfl,
      List.forall_mem_cons.mpr ⟨vanishes, vanish⟩, begins⟩

theorem Opens.vanishes {symbol : Symbol} (opens : grammar.Opens .epsilon [symbol]) :
    grammar.Vanishes symbol := by
  rcases opens with ⟨_, all⟩ | ⟨_, _, _, _, _, begins⟩
  · exact all symbol (by simp)
  · exact absurd rfl begins.isLeaf.2

theorem Opens.cons {element first : Symbol} {rest : List Symbol} (visible : element ≠ .epsilon)
    (opens : grammar.Opens element [first]) : grammar.Opens element (first :: rest) := by
  rcases opens with ⟨same, _⟩ | ⟨before, symbol, after, split, vanish, begins⟩
  · exact absurd same visible
  · exact .inr ⟨before, symbol, after ++ rest, by
      rw [← List.cons_append, ← List.append_assoc, ← split]; rfl, vanish, begins⟩

theorem Opens.of_cons {element symbol : Symbol} {rest : List Symbol}
    (opens : grammar.Opens element (symbol :: rest)) :
    (grammar.Opens element [symbol] ∧ element ≠ .epsilon) ∨
      (grammar.Vanishes symbol ∧ grammar.Opens element rest) := by
  rcases opens with ⟨rfl, all⟩ | ⟨before, leader, after, split, vanish, begins⟩
  · obtain ⟨own, others⟩ := List.forall_mem_cons.mp all
    exact .inr ⟨own, .inl ⟨rfl, others⟩⟩
  · cases before with
    | nil =>
      obtain ⟨rfl, _⟩ := List.cons.inj split
      exact .inl ⟨.inr ⟨[], symbol, [], rfl, by simp, begins⟩, begins.isLeaf.2⟩
    | cons first before =>
      obtain ⟨rfl, rfl⟩ := List.cons.inj split
      obtain ⟨own, others⟩ := List.forall_mem_cons.mp vanish
      exact .inr ⟨own, .inr ⟨before, leader, after, rfl, others, begins⟩⟩

/-- What opens a right-hand side opens the left-hand side. -/
theorem Opens.of_rhs {production : Production} (declared : production ∈ grammar.productions)
    {element : Symbol} (opens : grammar.Opens element production.rhs) :
    grammar.Opens element [production.lhs] := by
  rcases opens with ⟨rfl, all⟩ | ⟨before, symbol, after, split, vanish, begins⟩
  · exact .inl ⟨rfl, by simpa using .expand declared all⟩
  · exact .inr ⟨[], production.lhs, [], rfl, by simp, .expand declared split vanish begins⟩

/-- What opens a non-terminal opens the right-hand side of one of its productions. -/
theorem Opens.exists_rhs {element symbol : Symbol} (kind : symbol.isNonterminal = true)
    (opens : grammar.Opens element [symbol]) :
    ∃ production ∈ grammar.productions, production.lhs = symbol ∧
      grammar.Opens element production.rhs := by
  rcases opens with ⟨rfl, all⟩ | ⟨before, leader, after, split, _, begins⟩
  · cases all symbol (by simp) with
    | epsilon => simp at kind
    | expand declared vanish => exact ⟨_, declared, rfl, .inl ⟨rfl, vanish⟩⟩
  · obtain rfl : symbol = leader := by
      cases before <;> simp_all
    cases begins with
    | self leaf => simp [leaf.1] at kind
    | expand declared inner vanish begins =>
      exact ⟨_, declared, rfl, .inr ⟨_, _, _, inner, vanish, begins⟩⟩

end Grammar

/-! ### FIRST of sequences -/

section
variable {first other : Assignment}

@[simp] theorem mem_firstOf_epsilon {element : Symbol} :
    element ∈ first.firstOf .epsilon ↔ element = .epsilon := by
  simp [Assignment.firstOf]

theorem firstOf_nonterminal {symbol : Symbol} (kind : symbol.isNonterminal = true) :
    first.firstOf symbol = first.get symbol := by
  simp [Assignment.firstOf, kind]

theorem mem_firstOf_leaf {symbol element : Symbol} (leaf : symbol.IsLeaf) :
    element ∈ first.firstOf symbol ↔ element = symbol := by
  simp [Assignment.firstOf, leaf.1]

theorem mem_firstOfSequence_cons {element symbol : Symbol} {rest : List Symbol} :
    element ∈ firstOfSequence first (symbol :: rest) ↔
      (element ∈ first.firstOf symbol ∧ element ≠ .epsilon) ∨
        (.epsilon ∈ first.firstOf symbol ∧ element ∈ firstOfSequence first rest) := by
  rw [firstOfSequence_cons]
  split
  · rename_i vanishing
    simp [vanishing]
  · rename_i visible
    constructor
    · intro member
      exact .inl ⟨member, fun same => visible (same ▸ member)⟩
    · rintro (⟨member, _⟩ | ⟨vanishing, _⟩)
      · exact member
      · exact absurd vanishing visible

theorem mem_firstOfSequence_append {element : Symbol} {left right : List Symbol} :
    element ∈ firstOfSequence first (left ++ right) ↔
      (element ∈ firstOfSequence first left ∧ element ≠ .epsilon) ∨
        (.epsilon ∈ firstOfSequence first left ∧ element ∈ firstOfSequence first right) := by
  induction left with
  | nil => simp
  | cons symbol rest ih =>
    rw [List.cons_append, mem_firstOfSequence_cons, mem_firstOfSequence_cons,
      mem_firstOfSequence_cons, ih]
    constructor
    · rintro (⟨leading, visible⟩ | ⟨vanishing, ⟨later, visible⟩ | ⟨vanish, later⟩⟩)
      · exact .inl ⟨.inl ⟨leading, visible⟩, visible⟩
      · exact .inl ⟨.inr ⟨vanishing, later⟩, visible⟩
      · exact .inr ⟨.inr ⟨vanishing, vanish⟩, later⟩
    · rintro (⟨⟨leading, visible⟩ | ⟨vanishing, later⟩, visible'⟩ | ⟨⟨_, no⟩ | vanish, later⟩)
      · exact .inl ⟨leading, visible⟩
      · exact .inr ⟨vanishing, .inl ⟨later, visible'⟩⟩
      · exact absurd rfl no
      · exact .inr ⟨vanish.1, .inr ⟨vanish.2, later⟩⟩

theorem mem_firstOfSequence_singleton {element symbol : Symbol} :
    element ∈ firstOfSequence first [symbol] ↔ element ∈ first.firstOf symbol := by
  rw [mem_firstOfSequence_cons]
  simp only [firstOfSequence_nil, SymbolSet.mem_singleton]
  constructor
  · rintro (⟨member, _⟩ | ⟨vanishing, rfl⟩)
    · exact member
    · exact vanishing
  · intro member
    by_cases same : element = .epsilon
    · exact .inr ⟨same ▸ member, same⟩
    · exact .inl ⟨member, same⟩

theorem mem_firstOfSequence_withoutEpsilon {element : Symbol} {symbols : List Symbol} :
    element ∈ firstOfSequence first (withoutEpsilon symbols) ↔
      element ∈ firstOfSequence first symbols := by
  induction symbols with
  | nil => rfl
  | cons symbol rest ih =>
    by_cases visible : symbol = .epsilon
    · subst visible
      rw [withoutEpsilon_epsilon_cons, ih, mem_firstOfSequence_cons]
      simp
    · rw [withoutEpsilon_cons visible, mem_firstOfSequence_cons, mem_firstOfSequence_cons, ih]

theorem firstOf_mono (below : ∀ symbol, ∀ element ∈ first.get symbol, element ∈ other.get symbol)
    {symbol element : Symbol} (member : element ∈ first.firstOf symbol) :
    element ∈ other.firstOf symbol := by
  unfold Assignment.firstOf at member ⊢
  split
  · rename_i kind
    rw [if_pos kind] at member
    exact below symbol element member
  · rename_i kind
    rwa [if_neg kind] at member

theorem firstOfSequence_mono
    (below : ∀ symbol, ∀ element ∈ first.get symbol, element ∈ other.get symbol)
    {symbols : List Symbol} {element : Symbol} (member : element ∈ firstOfSequence first symbols) :
    element ∈ firstOfSequence other symbols := by
  induction symbols with
  | nil => exact member
  | cons symbol rest ih =>
    rw [mem_firstOfSequence_cons] at member ⊢
    rcases member with ⟨leading, visible⟩ | ⟨vanishing, later⟩
    · exact .inl ⟨firstOf_mono below leading, visible⟩
    · exact .inr ⟨firstOf_mono below vanishing, ih later⟩

end

/-! ### What the passes keep and where they end -/

namespace Assignment

/-- Every element of a set is there by the rules. -/
def FirstSound (grammar : Grammar) (first : Assignment) : Prop :=
  ∀ symbol, ∀ element ∈ first.get symbol, grammar.Opens element [symbol]

/-- What a production contributes to its left-hand side is there. -/
def FirstSettled (first : Assignment) (production : Production) : Prop :=
  ∀ element ∈ firstOfSequence first production.rhs, element ∈ first.get production.lhs

variable {grammar : Grammar} {first : Assignment}

theorem FirstSound.firstOf (sound : first.FirstSound grammar) {symbol element : Symbol}
    (member : element ∈ first.firstOf symbol) : grammar.Opens element [symbol] := by
  by_cases kind : symbol.isNonterminal = true
  · rw [firstOf_nonterminal kind] at member
    exact sound symbol element member
  · have same : element = symbol := by simpa [Assignment.firstOf, kind] using member
    subst same
    by_cases empty : element = .epsilon
    · subst empty
      exact .inl ⟨rfl, by simpa using .epsilon⟩
    · exact .inr ⟨[], element, [], rfl, by simp, .self ⟨by simpa using kind, empty⟩⟩

theorem FirstSound.firstOfSequence (sound : first.FirstSound grammar) {symbols : List Symbol}
    {element : Symbol} (member : element ∈ Predictive.firstOfSequence first symbols) :
    grammar.Opens element symbols := by
  induction symbols with
  | nil => exact .inl ⟨by simpa using member, by simp⟩
  | cons symbol rest ih =>
    -- the element comes from the first symbol, or from the rest behind a vanishing one
    rcases mem_firstOfSequence_cons.mp member with ⟨leading, visible⟩ | ⟨vanishing, later⟩
    · exact (sound.firstOf leading).cons visible
    · exact .of_vanishing (sound.firstOf vanishing).vanishes (ih later)

theorem FirstSound.add (sound : first.FirstSound grammar) {production : Production}
    (declared : production ∈ grammar.productions) :
    (first.add production.lhs (Predictive.firstOfSequence first production.rhs)).FirstSound
      grammar := by
  intro symbol element member
  rcases mem_get_add.mp member with old | ⟨rfl, added⟩
  · exact sound symbol element old
  · exact .of_rhs declared (sound.firstOfSequence added)

theorem mem_firstOfSequence_of_produces
    (closed : ∀ production ∈ grammar.productions, first.FirstSettled production)
    {form next : List Symbol} (step : grammar.Produces form next) {element : Symbol}
    (member : element ∈ Predictive.firstOfSequence first next) :
    element ∈ Predictive.firstOfSequence first form := by
  obtain ⟨production, declared, before, after, rfl, rfl⟩ := step
  -- the left-hand side begins with all that its right-hand side begins with
  have leading : ∀ other ∈ Predictive.firstOfSequence first (withoutEpsilon production.rhs),
      other ∈ first.firstOf production.lhs := by
    intro other inside
    rw [firstOf_nonterminal (Grammar.isNonterminal_lhs declared)]
    exact closed production declared other (mem_firstOfSequence_withoutEpsilon.mp inside)
  rw [List.append_assoc, mem_firstOfSequence_append] at member
  rw [mem_firstOfSequence_append]
  rcases member with ⟨front, visible⟩ | ⟨vanishing, rest⟩
  · exact .inl ⟨front, visible⟩
  · refine .inr ⟨vanishing, mem_firstOfSequence_cons.mpr ?_⟩
    rcases mem_firstOfSequence_append.mp rest with ⟨inside, visible⟩ | ⟨empty, later⟩
    · exact .inl ⟨leading element inside, visible⟩
    · exact .inr ⟨leading .epsilon empty, later⟩

theorem mem_firstOfSequence_of_derives
    (closed : ∀ production ∈ grammar.productions, first.FirstSettled production)
    {form next : List Symbol} (derived : grammar.Derives form next) {element : Symbol}
    (member : element ∈ Predictive.firstOfSequence first next) :
    element ∈ Predictive.firstOfSequence first form := by
  induction derived with
  | refl => exact member
  | tail _ step ih => exact ih (mem_firstOfSequence_of_produces closed step member)

end Assignment

namespace Grammar

variable (grammar : Grammar)

theorem mem_rhsLeaves {symbol : Symbol} :
    symbol ∈ grammar.rhsLeaves ↔
      (∃ production ∈ grammar.productions, symbol ∈ production.rhs) ∧ symbol.IsLeaf := by
  simp [rhsLeaves, Symbol.IsLeaf]

/-- Everything that a FIRST set can hold. -/
def firstRange : List Symbol :=
  grammar.rhsLeaves ++ [.epsilon]

theorem firstOfSequence_within {first : Assignment}
    (within : first.Within grammar.nonTerminals grammar.firstRange) {symbols : List Symbol}
    (known : ∀ symbol ∈ symbols, symbol.IsLeaf → symbol ∈ grammar.rhsLeaves) {element : Symbol}
    (member : element ∈ firstOfSequence first symbols) : element ∈ grammar.firstRange := by
  induction symbols with
  | nil => simp_all [firstRange]
  | cons symbol rest ih =>
    have later := ih fun other inside => known other (List.mem_cons_of_mem _ inside)
    rcases mem_firstOfSequence_cons.mp member with ⟨leading, visible⟩ | ⟨_, inside⟩
    · by_cases kind : symbol.isNonterminal = true
      · rw [firstOf_nonterminal kind] at leading
        exact within.get leading
      · have same : element = symbol := by simpa [Assignment.firstOf, kind] using leading
        subst same
        exact List.mem_append_left _ (known element (by simp) ⟨by simpa using kind, visible⟩)
    · exact later inside

/-- The passes over the productions add what is there by the rules, and no more than there can
be. -/
theorem firstPass_inflates :
    Inflates
      (fun first production => first.add production.lhs (firstOfSequence first production.rhs))
      Assignment.size Assignment.view
      (fun first => first.Within grammar.nonTerminals grammar.firstRange ∧ first.FirstSound grammar)
      (fun view production => ∀ first : Assignment, first.view = view → first.FirstSettled production)
      grammar.productions (grammar.nonTerminals.length * (grammar.rhsLeaves.length + 1)) where
  kept := by
    rintro first ⟨within, sound⟩ production declared
    refine ⟨within.add (lhs_mem_nonTerminals declared) ?_, sound.add declared⟩
    intro element member
    refine grammar.firstOfSequence_within within ?_ member
    intro symbol inside leaf
    exact grammar.mem_rhsLeaves.mpr ⟨⟨production, declared, inside⟩, leaf⟩
  grows := fun first production => first.size_le_add _ _
  still := by
    -- where the size stays, all that the production contributes was there already
    intro first production _ same
    refine ⟨Assignment.view_add_of_size same, ?_⟩
    intro other equal element member
    have below : ∀ symbol, ∀ inside ∈ other.get symbol, inside ∈ first.get symbol := by
      intro symbol inside old
      have moved : inside ∈ other.view symbol := old
      rwa [equal] at moved
    have settled := Assignment.mem_get_of_size_add same (firstOfSequence_mono below member)
    rw [← Assignment.mem_view, equal]
    exact settled
  bounded := by
    rintro first ⟨within, _⟩
    simpa [firstRange] using within.size_le

theorem empty_within_sound :
    Assignment.empty.Within grammar.nonTerminals grammar.firstRange ∧
      Assignment.empty.FirstSound grammar :=
  ⟨.empty, fun _ _ member => absurd member (SymbolSet.not_mem_empty _)⟩

theorem firstByPasses_within :
    grammar.firstByPasses.Within grammar.nonTerminals grammar.firstRange :=
  (grammar.firstPass_inflates.holds_untilStable grammar.passLimit grammar.empty_within_sound).1

theorem firstByPasses_sound : grammar.firstByPasses.FirstSound grammar :=
  (grammar.firstPass_inflates.holds_untilStable grammar.passLimit grammar.empty_within_sound).2

theorem firstByPasses_settled :
    ∀ production ∈ grammar.productions, grammar.firstByPasses.FirstSettled production := by
  intro production declared
  have settled := grammar.firstPass_inflates.settled_untilStable grammar.passLimit _
    grammar.empty_within_sound (by simp [passLimit, Assignment.size, Assignment.empty])
  exact settled production declared _ rfl

variable {grammar}

/-- The passes find the empty string exactly in FIRST of what derives it. -/
theorem epsilon_mem_firstByPasses_iff {symbols : List Symbol} :
    .epsilon ∈ firstOfSequence grammar.firstByPasses symbols ↔
      grammar.Derives (withoutEpsilon symbols) [] := by
  constructor
  · intro member
    exact (grammar.firstByPasses_sound.firstOfSequence member).derives_nil
  · intro derived
    rw [← mem_firstOfSequence_withoutEpsilon]
    apply Assignment.mem_firstOfSequence_of_derives grammar.firstByPasses_settled derived
    simp

/-- The passes find a leaf exactly in FIRST of what derives a string that it begins. -/
theorem mem_firstByPasses_iff {symbols : List Symbol} {element : Symbol}
    (visible : element ≠ .epsilon) :
    element ∈ firstOfSequence grammar.firstByPasses symbols ↔
      element.IsLeaf ∧ ∃ rest, grammar.Derives (withoutEpsilon symbols) (element :: rest) := by
  constructor
  · intro member
    exact (grammar.firstByPasses_sound.firstOfSequence member).derives visible
  · rintro ⟨leaf, rest, derived⟩
    rw [← mem_firstOfSequence_withoutEpsilon]
    apply Assignment.mem_firstOfSequence_of_derives grammar.firstByPasses_settled derived
    exact mem_firstOfSequence_cons.mpr (.inl ⟨(mem_firstOf_leaf leaf).mpr rfl, visible⟩)

theorem mem_firstByPasses_iff_opens {symbols : List Symbol} {element : Symbol} :
    element ∈ firstOfSequence grammar.firstByPasses symbols ↔ grammar.Opens element symbols := by
  constructor
  · exact grammar.firstByPasses_sound.firstOfSequence
  · intro opens
    by_cases empty : element = .epsilon
    · subst empty
      exact epsilon_mem_firstByPasses_iff.mpr opens.derives_nil
    · exact (mem_firstByPasses_iff empty).mpr (opens.derives empty)

theorem opens_of_derives {symbols rest : List Symbol} {element : Symbol} (leaf : element.IsLeaf)
    (derived : grammar.Derives (withoutEpsilon symbols) (element :: rest)) :
    grammar.Opens element symbols :=
  mem_firstByPasses_iff_opens.mp ((mem_firstByPasses_iff leaf.2).mpr ⟨leaf, rest, derived⟩)

theorem opens_epsilon_of_derives {symbols : List Symbol}
    (derived : grammar.Derives (withoutEpsilon symbols) []) :
    grammar.Opens .epsilon symbols :=
  mem_firstByPasses_iff_opens.mp (epsilon_mem_firstByPasses_iff.mpr derived)

end Grammar

end Predictive
