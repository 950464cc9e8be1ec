/-! Documents: the values that are checked. Whole numbers and doubles are kept apart, and the
members of an object stand in the order of their names, each name once. -/

namespace Vetting

inductive Number where
  | integer (value : Int)
  | double (value : Float)

namespace Number

/-- A whole number is never the same as a double. -/
def same : Number → Number → Bool
  | integer m, integer n => m == n
  | double x, double y => x == y
  | _, _ => false

def toDouble : Number → Float
  | integer n =>
    let magnitude := Float.ofScientific n.natAbs false 0
    if n < 0 then -magnitude else magnitude
  | double x => x

/-- The whole numbers a document holds as such; others are doubles. -/
def inRange (n : Int) : Bool := -Int.pow 2 63 ≤ n && n < Int.pow 2 64

end Number

inductive Json where
  | null
  | bool (value : Bool)
  | number (value : Number)
  | text (value : String)
  | array (items : List Json)
  | object (members : List (String × Json))

namespace Json

mutual

def same : Json → Json → Bool
  | null, null => true
  | bool a, bool b => a == b
  | number a, number b => a.same b
  | text a, text b => a == b
  | array a, array b => sameItems a b
  | object a, object b => sameMembers a b
  | _, _ => false

def sameItems : List Json → List Json → Bool
  | [], [] => true
  | a :: as, b :: bs => same a b && sameItems as bs
  | _, _ => false

def sameMembers : List (String × Json) → List (String × Json) → Bool
  | [], [] => true
  | (k, a) :: as, (l, b) :: bs => k == l && same a b && sameMembers as bs
  | _, _ => false

end

instance : BEq Json := ⟨same⟩

def insertMember (name : String) (value : Json) : List (String × Json) → List (String × Json)
  | [] => [(name, value)]
  | (k, v) :: rest =>
    if name < k then (name, value) :: (k, v) :: rest
    else if name = k then (name, value) :: rest
    else (k, v) :: insertMember name value rest

def ofMembers (members : List (String × Json)) : Json :=
  object (members.foldl (fun acc (k, v) => insertMember k v acc) [])

def member? (name : String) : Json → Option Json
  | object members => members.lookup name
  | _ => none

def items : Json → List Json
  | array items => items
  | _ => []

def text? : Json → Option String
  | text s => some s
  | _ => none

def double? : Json → Option Float
  | number n => some n.toDouble
  | _ => none

def int (n : Int) : Json := number (.integer n)

end Json

end Vetting
