/-! Membership in a set of code points that is given by its maximal intervals. -/

set_option autoImplicit false

namespace Predictive.Text

/-- Both ends of an interval belong to it. -/
def inRanges (ranges : List (Nat × Nat)) (point : Nat) : Bool :=
  ranges.any fun (first, last) => first ≤ point && point ≤ last

end Predictive.Text
