import Predictive.Analysis
import Predictive.Json.Basic
import Mathlib.Data.List.Basic

/-! Names of strategies. Strategies are given as any JSON value and looked up by its text. No value
but a string has a text that is the name of one: both names have the letter `i` in them, which numbers
do not use. -/

set_option autoImplicit false

namespace Predictive

/-- Options are accepted as they are. -/
theorem GrammarOptions.checked_eq_ok {options accepted : GrammarOptions} :
    options.checked = .ok accepted ↔ options.strategy ∈ strategyNames ∧ accepted = options := by
  unfold GrammarOptions.checked
  by_cases listed : options.strategy ∈ strategyNames
  · rw [if_pos (List.contains_iff_mem.mpr listed), Except.ok.injEq]
    exact ⟨fun same => ⟨listed, same.symm⟩, fun both => both.2.symm⟩
  · rw [if_neg (by simpa using listed)]
    exact iff_of_false nofun fun both => listed both.1

theorem Strategy.exists_of_mem {name : String} (listed : name ∈ strategyNames) :
    ∃ strategy, Strategy.ofName name = .ok strategy := by
  rcases List.mem_pair.mp listed with rfl | rfl
  · exact ⟨.fixedPoint, rfl⟩
  · exact ⟨.recursive, rfl⟩

theorem Strategy.eq_of_ofName {name : String} (descends : Strategy.ofName name = .ok .recursive) :
    name = "recursive" := by
  unfold Strategy.ofName at descends
  split at descends
  · cases descends
  · split at descends
    · assumption
    · cases descends

namespace Number

theorem not_mem_toString (value : Nat) : 'i' ∉ (toString value).toList := by
  intro member
  rw [Nat.toString_eq_repr, Nat.toList_repr] at member
  exact absurd (Nat.isDigit_of_mem_toDigits (by decide) (by decide) member) (by decide)

theorem not_mem_decimalText {digits : List Char} (free : 'i' ∉ digits) (point : Int) :
    'i' ∉ decimalText digits point := by
  have taken (count : Nat) : 'i' ∉ digits.take count := fun member => free (List.mem_of_mem_take member)
  have left (count : Nat) : 'i' ∉ digits.drop count := fun member => free (List.mem_of_mem_drop member)
  have tail : 'i' ∉ digits.tail := fun member => free (List.mem_of_mem_tail member)
  have size := not_mem_toString (point - 1).natAbs
  unfold decimalText
  dsimp only
  split
  · split
    · simp [free]
    · split <;> simp [taken, left]
  · split <;> split <;> split <;> simp_all

theorem Real.text_not_mem_strategyNames (value : Real) : value.text ∉ strategyNames := by
  cases value with
  | nan => decide
  | infinite negative => cases negative <;> decide
  | finite negative magnitude =>
    have digits : 'i' ∉ dropTrailingZeros (toString (shortest magnitude).1).toList := by
      intro member
      have kept := (List.dropWhile_sublist _).subset (List.mem_reverse.mp member)
      exact not_mem_toString _ (List.mem_reverse.mp kept)
    have sign : 'i' ∉ (if negative then "-" else "").toList := by cases negative <;> decide
    have free : 'i' ∉ (Real.finite negative magnitude).text.toList := by
      unfold Real.text
      dsimp only
      split
      · simp [sign]
      · rw [String.toList_append, String.toList_ofList, List.mem_append, not_or]
        exact ⟨sign, not_mem_decimalText digits _⟩
    intro listed
    rcases List.mem_pair.mp listed with same | same <;>
      exact absurd free (by rw [same]; decide)

end Number

namespace Json

/-- A value whose text is the name of a strategy is this name. -/
theorem eq_string_of_text {value : Json} (listed : value.text ∈ strategyNames) :
    ∃ name ∈ strategyNames, value = .string name := by
  cases value with
  | string name => exact ⟨name, listed, rfl⟩
  | null => exact absurd listed (by decide)
  | bool value => cases value <;> exact absurd listed (by decide)
  | real value => exact absurd listed value.text_not_mem_strategyNames
  | integer value =>
    have free : 'i' ∉ (toString value).toList := by
      rw [Int.toString_eq_repr, Int.repr_eq_if]
      have digits (size : Nat) := Number.not_mem_toString size
      split <;> simp_all
    rcases List.mem_pair.mp listed with same | same <;>
      exact absurd free (by rw [show toString value = _ from same]; decide)
  | array elements =>
    have bracket : (Json.array elements).text.toList.head? = some '[' := by
      simp [text, quotedText]
    rcases List.mem_pair.mp listed with same | same <;>
      exact absurd bracket (by rw [same]; decide)
  | object members =>
    have bracket : (Json.object members).text.toList.head? = some '\x7b' := by
      simp [text, quotedText]
    rcases List.mem_pair.mp listed with same | same <;>
      exact absurd bracket (by rw [same]; decide)

end Json

end Predictive
