import Predictive.Proofs.FollowPasses

/-! FOLLOW sets and derivations. Each contribution to a FOLLOW set is a step of a derivation, so the
final sets hold nothing but what can stand behind a non-terminal; and they are closed under the
contributions of all places, so they hold every such symbol. -/

set_option autoImplicit false

namespace Predictive

namespace Grammar

variable (grammar : Grammar)

/-- Everything that a FOLLOW set can hold. -/
def followRange : List Symbol :=
  grammar.rhsLeaves ++ [.endOfInput]

variable {grammar} {first follow : Assignment} {cache : SequenceCache}

theorem rest_within {first : Assignment}
    (within : first.Within grammar.nonTerminals grammar.firstRange) {place : Occurrence}
    (member : place ∈ grammar.occurrences) {element : Symbol}
    (inside : element ∈ firstOfSequence first place.rest) (visible : element ≠ .epsilon) :
    element ∈ grammar.rhsLeaves := by
  obtain ⟨_, production, declared, _, before, split⟩ := mem_occurrences.mp member
  have known : ∀ symbol ∈ place.rest, symbol.IsLeaf → symbol ∈ grammar.rhsLeaves := by
    intro symbol later leaf
    exact grammar.mem_rhsLeaves.mpr ⟨⟨production, declared, by simp [split, later]⟩, leaf⟩
  have range := grammar.firstOfSequence_within within known inside
  simpa [firstRange, visible] using range

theorem ne_endOfInput_of_mem_rhsLeaves {symbol : Symbol} (member : symbol ∈ grammar.rhsLeaves) :
    symbol ≠ .endOfInput := by
  rintro rfl
  obtain ⟨⟨production, declared, inside⟩, _⟩ := grammar.mem_rhsLeaves.mp member
  exact kind_ne_endOfInput declared inside rfl

/-! ### Soundness -/

theorem occurrence_derives {place : Occurrence} (member : place ∈ grammar.occurrences) :
    ∃ before, grammar.Derives [place.lhs]
      (before ++ place.symbol :: withoutEpsilon place.rest) := by
  obtain ⟨kind, production, declared, owner, before, split⟩ := mem_occurrences.mp member
  refine ⟨withoutEpsilon before, ?_⟩
  have derived := Derives.of_production declared
  rw [owner, split, withoutEpsilon_append,
    withoutEpsilon_cons (Symbol.ne_epsilon_of_isNonterminal kind)] at derived
  exact derived

/-- What FOLLOW of a symbol is meant to hold: the end of input where a string derived from the
start symbol ends with it, and the leaves that stand behind it in a string derived from any
non-terminal. -/
def Trails (grammar : Grammar) (element symbol : Symbol) : Prop :=
  (element = .endOfInput ∧ ∃ before, grammar.Derives [grammar.start] (before ++ [symbol])) ∨
    element ≠ .endOfInput ∧ element.IsLeaf ∧
      ∃ owner ∈ grammar.nonTerminals, ∃ before after,
        grammar.Derives [owner] (before ++ symbol :: element :: after)

/-- What stands behind a left-hand side stands behind a symbol that can end its production. -/
theorem Trails.of_occurrence {place : Occurrence} (member : place ∈ grammar.occurrences)
    (empty : grammar.Derives (withoutEpsilon place.rest) []) {element : Symbol}
    (trails : grammar.Trails element place.lhs) : grammar.Trails element place.symbol := by
  obtain ⟨before, derived⟩ := occurrence_derives member
  have ends : grammar.Derives [place.lhs] (before ++ [place.symbol]) := by
    simpa using derived.trans ((empty.append_left [place.symbol]).append_left before)
  rcases trails with ⟨rfl, front, reached⟩ | ⟨other, leaf, owner, known, front, after, reached⟩
  · refine .inl ⟨rfl, front ++ before, reached.trans ?_⟩
    simpa using ends.append_left front
  · refine .inr ⟨other, leaf, owner, known, front ++ before, after, reached.trans ?_⟩
    simpa using (ends.append_right (element :: after)).append_left front

theorem Trails.of_first {place : Occurrence} (member : place ∈ grammar.occurrences)
    {element : Symbol} (other : element ≠ .endOfInput) (leaf : element.IsLeaf)
    {after : List Symbol} (derived : grammar.Derives (withoutEpsilon place.rest) (element :: after)) :
    grammar.Trails element place.symbol := by
  obtain ⟨kind, production, declared, owner, _⟩ := mem_occurrences.mp member
  obtain ⟨before, reached⟩ := occurrence_derives member
  refine .inr ⟨other, leaf, place.lhs, owner ▸ lhs_mem_nonTerminals declared, before, after,
    reached.trans ?_⟩
  exact (derived.append_left [place.symbol]).append_left before

section
variable (within : first.Within grammar.nonTerminals grammar.firstRange) {steps : Nat}
  {element symbol : Symbol}
include within

theorem FollowReach.mem_followRange (reach : grammar.FollowReach first element steps symbol) :
    element ∈ grammar.followRange := by
  induction reach with
  | start ending => simp [followRange, ending]
  | leading member begun visible =>
    exact List.mem_append_left _ (rest_within within member begun visible)
  | trailing _ _ _ ih => exact ih

theorem FollowReach.trails (sound : first.FirstSound grammar)
    (reach : grammar.FollowReach first element steps symbol) : grammar.Trails element symbol := by
  -- the seed is the end of the start symbol, and both ways to go on move along a production
  induction reach with
  | start ending => exact .inl ⟨ending, [], .refl _⟩
  | leading member begun visible =>
    obtain ⟨leaf, after, derived⟩ := (sound.firstOfSequence begun).derives visible
    have other := ne_endOfInput_of_mem_rhsLeaves (rest_within within member begun visible)
    exact .of_first member other leaf derived
  | trailing member empty _ ih =>
    exact .of_occurrence member (sound.firstOfSequence empty).derives_nil ih

end

/-! ### Completeness -/

/-- Where a symbol can stand when the middle of a form was replaced. -/
theorem eq_append_cons_cases {left middle right before after : List Symbol} {symbol : Symbol}
    (same : left ++ middle ++ right = before ++ symbol :: after) :
    (∃ behind, left = before ++ symbol :: behind ∧ after = behind ++ middle ++ right) ∨
      (∃ front behind, middle = front ++ symbol :: behind ∧ after = behind ++ right) ∨
        ∃ front, right = front ++ symbol :: after := by
  rw [List.append_assoc] at same
  rcases List.append_eq_append_iff.mp same with ⟨rest, rfl, split⟩ | ⟨rest, rfl, split⟩
  · rcases List.append_eq_append_iff.mp split with ⟨front, _, final⟩ | ⟨behind, inside, final⟩
    · exact .inr (.inr ⟨front, final⟩)
    · cases behind with
      | nil => exact .inr (.inr ⟨[], by simpa using final.symm⟩)
      | cons head behind =>
        obtain ⟨rfl, rfl⟩ := List.cons.inj final
        exact .inr (.inl ⟨rest, behind, inside, rfl⟩)
  · cases rest with
    | nil =>
      cases middle with
      | nil => exact .inr (.inr ⟨[], by simpa using split.symm⟩)
      | cons head behind =>
        obtain ⟨rfl, rfl⟩ := List.cons.inj split
        exact .inr (.inl ⟨[], behind, rfl, rfl⟩)
    | cons head behind =>
      obtain ⟨rfl, rfl⟩ := List.cons.inj split
      exact .inl ⟨behind, rfl, by simp⟩

theorem occurrence_of_withoutEpsilon {production : Production}
    (declared : production ∈ grammar.productions) {before after : List Symbol} {symbol : Symbol}
    (kind : symbol.isNonterminal = true)
    (split : withoutEpsilon production.rhs = before ++ symbol :: after) :
    ∃ rest, ⟨production.lhs, symbol, rest⟩ ∈ grammar.occurrences ∧ withoutEpsilon rest = after := by
  obtain ⟨front, back, whole, _, second⟩ := List.filter_eq_append_iff.mp split
  obtain ⟨skipped, rest, final, _, _, trailing⟩ := List.filter_eq_cons_iff.mp second
  refine ⟨rest, mem_occurrences.mpr ⟨kind, production, declared, rfl, front ++ skipped, ?_⟩, trailing⟩
  rw [whole, final, List.append_assoc]

/-- Behind every place in a derived form, what can come next is in FOLLOW of the symbol there;
and if nothing need come, so is what follows the symbol that the form is derived from. -/
theorem follow_of_derives
    (closed : ∀ production ∈ grammar.productions, first.FirstSettled production)
    (settled : ∀ place ∈ grammar.occurrences, first.FollowSettled follow place)
    {owner : Symbol} {form : List Symbol} (derived : grammar.Derives [owner] form)
    {before after : List Symbol} {symbol : Symbol} (kind : symbol.isNonterminal = true)
    (split : form = before ++ symbol :: after) :
    (∀ element ∈ firstOfSequence first after, element ≠ .epsilon →
        element ∈ follow.get symbol) ∧
      (.epsilon ∈ firstOfSequence first after →
        ∀ element ∈ follow.get owner, element ∈ follow.get symbol) := by
  -- by the last step of the derivation: where the place is relative to what was replaced
  induction derived generalizing before after symbol with
  | refl =>
    have single : before = [] ∧ owner = symbol ∧ after = [] := by
      cases before with
      | nil => simpa using split
      | cons head rest => simp at split
    obtain ⟨rfl, rfl, rfl⟩ := single
    refine ⟨fun element inside visible => absurd (by simpa using inside) visible, ?_⟩
    exact fun _ _ inside => inside
  | tail _ step ih =>
    obtain ⟨production, declared, left, right, rfl, rfl⟩ := step
    rcases eq_append_cons_cases split with
      ⟨behind, rfl, rfl⟩ | ⟨front, behind, inner, rfl⟩ | ⟨front, rfl⟩
    · -- before the replaced non-terminal: what follows began no less before the step
      have narrow : ∀ element,
          element ∈ firstOfSequence first (behind ++ withoutEpsilon production.rhs ++ right) →
            element ∈ firstOfSequence first (behind ++ production.lhs :: right) := fun _ =>
        Assignment.mem_firstOfSequence_of_produces closed
          ⟨production, declared, behind, right, rfl, rfl⟩
      have whole : before ++ symbol :: behind ++ production.lhs :: right =
          before ++ symbol :: (behind ++ production.lhs :: right) := by simp
      obtain ⟨next, trailing⟩ := ih kind whole
      exact ⟨fun element inside => next element (narrow element inside),
        fun empty => trailing (narrow _ empty)⟩
    · -- in the right-hand side that was put in
      obtain ⟨rest, occurs, rfl⟩ := occurrence_of_withoutEpsilon declared kind inner
      obtain ⟨next, trailing⟩ := settled _ occurs
      obtain ⟨later, ending⟩ := ih (isNonterminal_lhs declared) rfl
      constructor
      · intro element inside visible
        rcases mem_firstOfSequence_append.mp inside with ⟨own, _⟩ | ⟨empty, behind⟩
        · exact next element (mem_firstOfSequence_withoutEpsilon.mp own) visible
        · exact trailing (mem_firstOfSequence_withoutEpsilon.mp empty) element
            (later element behind visible)
      · intro empty element inside
        rcases mem_firstOfSequence_append.mp empty with ⟨_, no⟩ | ⟨vanish, vanishing⟩
        · exact absurd rfl no
        · exact trailing (mem_firstOfSequence_withoutEpsilon.mp vanish) element
            (ending vanishing element inside)
    · -- behind the replaced non-terminal: nothing changed
      have whole : left ++ production.lhs :: (front ++ symbol :: after) =
          left ++ production.lhs :: front ++ symbol :: after := by simp
      exact ih kind whole

theorem mem_follow_of_trails
    (first_closed : ∀ production ∈ grammar.productions, first.FirstSettled production)
    (closed : grammar.FollowClosed first follow) {element symbol : Symbol}
    (kind : symbol.isNonterminal = true) (trails : grammar.Trails element symbol) :
    element ∈ follow.get symbol := by
  rcases trails with ⟨rfl, before, derived⟩ | ⟨_, leaf, owner, _, before, after, derived⟩
  · exact (follow_of_derives first_closed closed.settled derived kind rfl).2 (by simp) _ closed.start
  · refine (follow_of_derives first_closed closed.settled derived kind rfl).1 element ?_ leaf.2
    exact mem_firstOfSequence_cons.mpr (.inl ⟨(mem_firstOf_leaf leaf).mpr rfl, leaf.2⟩)

/-- The passes find in FOLLOW of a non-terminal what stands behind it, and nothing else. -/
theorem mem_followByPasses_iff (faithful : cache.Faithful grammar.firstByPasses)
    {element symbol : Symbol} (kind : symbol.isNonterminal = true) :
    element ∈ (grammar.followByPasses grammar.firstByPasses cache).follow.get symbol ↔
      grammar.Trails element symbol := by
  obtain ⟨sound, closed⟩ := followByPasses_ends faithful
  constructor
  · intro member
    obtain ⟨_, reach⟩ := sound.reached symbol element member
    exact reach.trails grammar.firstByPasses_within grammar.firstByPasses_sound
  · exact mem_follow_of_trails grammar.firstByPasses_settled closed kind

end Grammar

end Predictive
