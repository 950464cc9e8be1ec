import Vetting.Origin
import Vetting.Value.Basic

/-! Rules on lengths: the characters of a text, the items of a collection. -/

namespace Vetting

inductive LengthUnit where
  | characters
  | items
deriving DecidableEq, Repr

inductive LengthBound where
  | equalTo
  | lowerThan
  | atMost
  | greaterThan
  | atLeast
deriving DecidableEq, Repr

inductive LengthRule where
  | empty
  | nonempty
  | bounded (bound : LengthBound) (length : Nat)
  | between (low high : Nat)
deriving DecidableEq, Repr

def Value.length? : Value → Option (LengthUnit × Nat)
  | text s => some (.characters, s.length)
  | sequence items => some (.items, items.length)
  | textSet _ members => some (.items, members.length)
  | table members => some (.items, members.length)
  | _ => none

namespace LengthBound

def accepts : LengthBound → Nat → Nat → Bool
  | equalTo, bound, n => n == bound
  | lowerThan, bound, n => n < bound
  | atMost, bound, n => n ≤ bound
  | greaterThan, bound, n => bound < n
  | atLeast, bound, n => bound ≤ n

def wording : LengthUnit → LengthBound → String
  | .characters, equalTo => "exactly"
  | .characters, lowerThan => "less than"
  | .characters, atMost => "at most"
  | .characters, greaterThan => "more than"
  | .characters, atLeast => "at least"
  | .items, equalTo => "equal to"
  | .items, lowerThan => "lower than"
  | .items, atMost => "lower than or equal to"
  | .items, greaterThan => "greater than"
  | .items, atLeast => "greater than or equal to"

end LengthBound

namespace LengthRule

def accepts : LengthRule → Nat → Bool
  | empty, n => n == 0
  | nonempty, n => n != 0
  | bounded b bound, n => b.accepts bound n
  | between low high, n => low ≤ n && n ≤ high

def phrase (unit : LengthUnit) (relation amount : String) : String :=
  match unit with
  | .characters => "Must contain " ++ relation ++ " " ++ amount ++ " characters"
  | .items => "The number of items must be " ++ relation ++ " " ++ amount

def message (unit : LengthUnit) : LengthRule → String
  | empty => "Must be empty"
  | nonempty => "Must not be empty"
  | bounded b bound => phrase unit (b.wording unit) (toString bound)
  | between low high => phrase unit "between" (toString low ++ " and " ++ toString high)

def name : LengthRule → RuleName
  | empty => .empty
  | nonempty => .nonempty
  | bounded .equalTo _ => .lengthEqualTo
  | bounded .lowerThan _ => .lengthLowerThan
  | bounded .atMost _ => .lengthAtMost
  | bounded .greaterThan _ => .lengthGreaterThan
  | bounded .atLeast _ => .lengthAtLeast
  | between .. => .lengthBetween

end LengthRule

end Vetting
