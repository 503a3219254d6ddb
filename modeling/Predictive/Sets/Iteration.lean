/-! Repeating a pass until it adds nothing. -/

set_option autoImplicit false

namespace Predictive

/-- Repeats a pass until the size stays as it is, at most `limit` times. The last pass, which
added nothing, is part of the result. -/
def untilStable {State : Type} (pass : State → State) (size : State → Nat) :
    (limit : Nat) → State → State
  | 0, state => state
  | limit + 1, state =>
    let next := pass state
    if size next = size state then next else untilStable pass size limit next

/-- What every pass keeps, the repetition keeps. -/
theorem untilStable_invariant {State : Type} {pass : State → State} {size : State → Nat}
    (holds : State → Prop) (kept : ∀ state, holds state → holds (pass state))
    (limit : Nat) (state : State) (initial : holds state) :
    holds (untilStable pass size limit state) := by
  induction limit generalizing state with
  | zero => exact initial
  | succ limit ih =>
    unfold untilStable
    dsimp only
    split
    · exact kept state initial
    · exact ih _ (kept state initial)

end Predictive
