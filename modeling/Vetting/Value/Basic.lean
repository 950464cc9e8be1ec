import Vetting.Json.Basic

/-! Typed values, as the fields of a subject hold them, and the contents of nodes: a value, or a
value that may be absent. -/

namespace Vetting

structure IntegerType where
  signed : Bool
  bits : Nat
deriving DecidableEq, Repr

namespace IntegerType

def least (t : IntegerType) : Int := if t.signed then -Int.pow 2 (t.bits - 1) else 0

def greatest (t : IntegerType) : Int :=
  if t.signed then Int.pow 2 (t.bits - 1) - 1 else Int.pow 2 t.bits - 1

def holds (t : IntegerType) (n : Int) : Bool := t.least ≤ n && n ≤ t.greatest

end IntegerType

inductive SetOrder where
  | sorted
  | insertion
deriving DecidableEq, Repr

inductive Kind where
  | json
  | bool
  | char
  | text
  | integer (type : IntegerType)
  | single
  | double
  | sequence
  | textSet (order : SetOrder)
  | table
  /-- A reference to a text that may be missing; the reference itself is always there. -/
  | reference
deriving DecidableEq, Repr

inductive Value where
  | json (value : Json)
  | bool (value : Bool)
  | char (value : Char)
  | text (value : String)
  | integer (type : IntegerType) (value : Int)
  | single (value : Float32)
  | double (value : Float)
  | sequence (items : List Json)
  | textSet (order : SetOrder) (members : List String)
  | table (members : List (String × Json))
  | reference (value : Option String)

namespace Value

def kind : Value → Kind
  | json _ => .json
  | bool _ => .bool
  | char _ => .char
  | text _ => .text
  | integer t _ => .integer t
  | single _ => .single
  | double _ => .double
  | sequence _ => .sequence
  | textSet o _ => .textSet o
  | table _ => .table
  | reference _ => .reference

def sortTexts (members : List String) : List String := members.mergeSort (· ≤ ·)

/-- Values of one kind are compared as that kind compares; sets have no order. -/
def same : Value → Value → Bool
  | json a, json b => a == b
  | bool a, bool b => a == b
  | char a, char b => a == b
  | text a, text b => a == b
  | integer _ a, integer _ b => a == b
  | single a, single b => a == b
  | double a, double b => a == b
  | sequence as, sequence bs => Json.sameItems as bs
  | textSet _ as, textSet _ bs => sortTexts as == sortTexts bs
  | table as, table bs => Json.sameMembers as bs
  | reference a, reference b => a == b
  | _, _ => false

instance : BEq Value := ⟨same⟩

def ofDouble (x : Float) : Json :=
  if x.isNaN then .text "NaN"
  else if x.isInf then .text (if x < 0 then "-inf" else "inf")
  else .number (.double x)

def ofInteger (n : Int) : Json := if Number.inRange n then .int n else .text (toString n)

/-- The document that stands for a value. Numbers that a document cannot hold are texts. -/
def toJson : Value → Json
  | json j => j
  | bool b => .bool b
  | char c => .text (String.singleton c)
  | text s => .text s
  | integer _ n => ofInteger n
  | single x => ofDouble x.toFloat
  | double x => ofDouble x
  | sequence items => .array items
  | textSet _ members => .array ((sortTexts members).map .text)
  | table members => .object members
  | reference none => .null
  | reference (some s) => .text s

def items : Value → List Value
  | sequence items => items.map json
  | textSet _ members => members.map text
  | _ => []

end Value

inductive Content where
  | plain (value : Value)
  | optional (value : Option Value)

namespace Content

def present? : Content → Option Value
  | plain v => some v
  | optional v => v

def same (a b : Content) : Bool :=
  match a.present?, b.present? with
  | some v, some w => v == w
  | none, none => true
  | _, _ => false

instance : BEq Content := ⟨same⟩

def toJson (c : Content) : Json := (c.present?.map Value.toJson).getD .null

def json? (c : Content) : Option Json :=
  match c.present? with
  | some (.json j) => some j
  | _ => none

def text? (c : Content) : Option String :=
  match c.present? with
  | some (.text s) => some s
  | some (.reference s) => s
  | _ => none

def items : Content → List Content
  | plain v => v.items.map plain
  | optional v => v.toList.map plain

def elements (c : Content) : List Content :=
  ((c.json?.map Json.items).getD []).map fun j => plain (.json j)

def countDistinct (cs : List Content) : Nat :=
  (cs.foldl (fun seen c => if seen.contains c then seen else seen ++ [c]) []).length

end Content

end Vetting
