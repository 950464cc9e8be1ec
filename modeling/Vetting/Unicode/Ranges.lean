/-! Sets of code points, given as ascending inclusive ranges. -/

namespace Vetting.Unicode

abbrev Ranges := List (Nat × Nat)

def Ranges.contains : Ranges → Nat → Bool
  | [], _ => false
  | (lo, hi) :: rest, n => if n < lo then false else n ≤ hi || Ranges.contains rest n

end Vetting.Unicode
