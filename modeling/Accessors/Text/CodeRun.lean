/-!
# Runs of code points

The form in which properties of characters are tabulated: every so manieth code point of a range.
-/
namespace Accessors

/-- Every `step`-th code point from `first` to `last`. -/
structure CodeRun where
  first : Nat
  last : Nat
  step : Nat

def CodeRun.contains (r : CodeRun) (n : Nat) : Bool := r.first ≤ n && n ≤ r.last && (n - r.first) % r.step = 0

/-- A run whose code points are all mapped to code points equally far away. -/
structure CodeShift where
  run : CodeRun
  distance : Int

end Accessors
