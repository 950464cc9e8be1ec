import Vetting.Decimal.Layout
import Vetting.Origin
import Vetting.Value.Reader

/-! Rules on the order of numbers. -/

namespace Vetting

inductive Quantity where
  | whole (value : Int)
  | single (value : Float32)
  | double (value : Float)

namespace Quantity

def lt : Quantity → Quantity → Bool
  | whole m, whole n => m < n
  | single x, single y => x < y
  | double x, double y => x < y
  | _, _ => false

def le : Quantity → Quantity → Bool
  | whole m, whole n => m ≤ n
  | single x, single y => x ≤ y
  | double x, double y => x ≤ y
  | _, _ => false

def write : Quantity → String
  | whole n => toString n
  | single x => Decimal.Layout.bound.write (Decimal.ofSingle x)
  | double x => Decimal.Layout.bound.write (Decimal.ofDouble x)

def zero : Quantity → Quantity
  | whole _ => whole 0
  | single _ => single 0
  | double _ => double 0

end Quantity

namespace Value

/-- The numbers of documents are compared as doubles, and other documents not at all. -/
def quantity? : Value → Option Quantity
  | integer _ n => some (.whole n)
  | single x => some (.single x)
  | double x => some (.double x)
  | json j => j.double?.map .double
  | _ => none

def boundKind (v : Value) : Kind :=
  match v.kind with
  | .json => .double
  | k => k

end Value

inductive OrderRule (β : Type) where
  | lowerThan (bound : β)
  | atMost (bound : β)
  | greaterThan (bound : β)
  | atLeast (bound : β)
  | between (low high : β)
  | positive
  | negative

namespace OrderRule

variable {β γ : Type}

def mapBounds? (f : β → Option γ) : OrderRule β → Option (OrderRule γ)
  | lowerThan b => (f b).map lowerThan
  | atMost b => (f b).map atMost
  | greaterThan b => (f b).map greaterThan
  | atLeast b => (f b).map atLeast
  | between low high => (f low).bind fun low => (f high).map (between low)
  | positive => some positive
  | negative => some negative

def accepts : OrderRule Quantity → Quantity → Bool
  | lowerThan b, q => q.lt b
  | atMost b, q => q.le b
  | greaterThan b, q => b.lt q
  | atLeast b, q => b.le q
  | between low high, q => low.le q && q.le high
  | positive, q => q.zero.lt q
  | negative, q => q.lt q.zero

def message : OrderRule Quantity → String
  | lowerThan b => "Must be lower than " ++ b.write
  | atMost b => "Must be lower than or equal to " ++ b.write
  | greaterThan b => "Must be greater than " ++ b.write
  | atLeast b => "Must be greater than or equal to " ++ b.write
  | between low high => "Must be between " ++ low.write ++ " and " ++ high.write
  | positive => "Must be positive"
  | negative => "Must be negative"

def name : OrderRule β → RuleName
  | lowerThan _ => .lowerThan
  | atMost _ => .atMost
  | greaterThan _ => .greaterThan
  | atLeast _ => .atLeast
  | between .. => .between
  | positive => .positive
  | negative => .negative

def readBounds? (r : OrderRule Json) (v : Value) : Option (OrderRule Quantity) :=
  r.mapBounds? fun j => (v.boundKind.read? j).bind Value.quantity?

end OrderRule

end Vetting
