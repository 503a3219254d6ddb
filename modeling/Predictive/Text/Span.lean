/-! Parts of a list between two signed bounds. A negative bound counts from the end, and bounds
beyond either end are brought back to it. -/

set_option autoImplicit false

namespace Predictive.Text

/-- The position that a signed bound denotes in a list of the given length. -/
def position (length : Nat) (bound : Int) : Nat :=
  if bound < 0 then (bound + length).toNat else min bound.toNat length

/-- The elements from `start` up to but not including `stop`. -/
def span {α : Type} (elements : List α) (start stop : Int) : List α :=
  (elements.take (position elements.length stop)).drop (position elements.length start)

end Predictive.Text
