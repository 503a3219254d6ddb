import Predictive.Gateway.Basic
import Predictive.Proofs.Exchanges
import Predictive.Proofs.NestedBodies

/-! The gateway keeps what the service expects of a framework, whatever it opens and has room for.
Bodies that nest too deep for it are those that it cannot read. -/

set_option autoImplicit false

namespace Predictive

/-- Texts under keys in their order are sorted already. -/
theorem Json.sorted_ofTexts {texts : List (String × String)}
    (ordered : texts.Pairwise fun left right => left.1 < right.1) :
    (Json.object (Service.Fields.ofTexts texts)).sorted = .object (Service.Fields.ofTexts texts) := by
  have kept : sortedMembers (Service.Fields.ofTexts texts) = Service.Fields.ofTexts texts := by
    clear ordered
    induction texts with
    | nil => rfl
    | cons entry rest ih =>
      rw [Service.Fields.ofTexts] at ih ⊢
      simp only [List.map_cons, sortedMembers, sorted, ih]
  rw [sorted, kept, List.mergeSort_of_pairwise]
  rw [Service.Fields.ofTexts, List.pairwise_map]
  exact ordered.imp fun before => decide_eq_true (Std.le_of_not_ge (String.not_le.mpr before))

namespace Gateway

open Service

variable {nesting room : Nat}

/-! ### Destinations of endpoints -/

theorem ofTarget_path (endpoint : Endpoint) :
    Destination.ofTarget endpoint.path = .ok ⟨[], [], endpoint.path.toList.drop 1⟩ := by
  cases endpoint <;> rfl

theorem route_path (endpoint : Endpoint) :
    Destination.route "POST" ⟨[], [], endpoint.path.toList.drop 1⟩ = .inl endpoint := by
  cases endpoint <;> rfl

theorem verb_post : verb "POST" = "POST" := by rfl

theorem lawful_framework (nesting room : Nat) : (framework nesting room).Lawful where
  routed request endpoint path method := by
    simp only [framework, path, method, ofTarget_path, verb_post, route_path, Sum.getLeft?_inl]
  sends texts ordered := by
    refine ⟨.json (.object (Fields.ofTexts texts)), ?_⟩
    simp only [framework, Payload.json?, Payload.read, Json.sorted_ofTexts ordered]
  failed := rfl
  bounded := ⟨room, fun calls many => by simpa [framework] using many⟩

/-! ### A request with all texts -/

def listFields : Fields :=
  .ofTexts [("cfg", "S -> a S | eps"), ("input", "a a"), ("start_symbol", "S"),
    ("strategy", "recursive")]

theorem sorted_listFields : (Json.object listFields).sorted = .object listFields := by
  have ordered : [("cfg", "S -> a S | eps"), ("input", "a a"), ("start_symbol", "S"),
      ("strategy", "recursive")].Pairwise fun left right => left.1 < right.1 := by decide
  exact Json.sorted_ofTexts ordered

theorem fields?_list (nesting room : Nat) :
    (framework nesting room).fields? (.json (.object listFields)) = some listFields := by
  simp only [Framework.fields?, framework, Payload.json?, Payload.read, sorted_listFields]
  rfl

theorem driverEnds_listFields : listFields.DriverEnds := by
  intro input analysis given analyzes
  cases given
  have ended : ((Analysis.ofText { strategy := "recursive" } "S -> a S | eps" (some "S")).toOption.bind
      fun analysis => analysis.table.parseText? 20 "a a").isSome = true := by decide +kernel
  have made : Analysis.ofText { strategy := "recursive" } "S -> a S | eps" (some "S") =
      .ok analysis := (Fields.analyzes_iff rfl rfl).mp analyzes
  rw [made] at ended
  exact ⟨20, Option.isSome_iff_exists.mp ended⟩

/-- A call for each non-terminal and one more fit. -/
theorem fits_framework {fields : Fields} (few : ∀ analysis : Analysis, fields.Analyzes analysis →
      analysis.grammar.nonTerminals.length < room) : fields.Fits (framework nesting room).room := by
  intro analysis analyzes
  have short := few analysis analyzes
  obtain ⟨grammar, strategy, rfl⟩ := analyzes.exists_new
  rw [Analysis.grammar_new] at short
  rw [Analysis.fits_new]
  refine Grammar.fits_of_ample (fun calls fewer => ?_) strategy
  have inside : calls.length ≤ room := by omega
  exact ⟨decide_eq_true inside, decide_eq_true inside⟩

theorem fits_listFields (enough : 2 ≤ room) : listFields.Fits (framework nesting room).room := by
  refine fits_framework fun analysis analyzes => ?_
  have made : Analysis.ofText { strategy := "recursive" } "S -> a S | eps" (some "S") =
      .ok analysis := (Fields.analyzes_iff rfl rfl).mp analyzes
  obtain ⟨grammar, strategy, read, _, rfl⟩ := Analysis.exists_of_ofText made
  have single : ((Grammar.ofText { strategy := "recursive" } "S -> a S | eps" (some "S")).toOption.map
      fun grammar => grammar.nonTerminals.length) = some 1 := by decide +kernel
  rw [read] at single
  rw [Analysis.grammar_new]
  exact (Option.some.inj single).trans_lt enough

/-! ### Written bodies -/

/-- The object of a body, written as a text. -/
def written (fields : Fields) : Payload :=
  .text (Json.object fields).write (some "application/json")

/-- Whatever the gateway opens at most, there is a body of which a member that no endpoint looks at
nests deeper. -/
theorem fields?_nested (nesting room : Nat) :
    (framework nesting room).fields? (written [("x", .nested (2 * nesting))]) = none := by
  have announced : isJsonType "application/json" = true := by decide
  simp only [Framework.fields?, framework, written, Payload.json?, Payload.read, Option.any_some,
    announced, if_true, Json.readBody_nested, Option.bind_none]

end Gateway

end Predictive
