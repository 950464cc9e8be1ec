import Vetting.Json.Reader
import Vetting.Value.Basic

/-! Reading typed values out of documents. -/

namespace Vetting

structure FieldType where
  kind : Kind
  optional : Bool
deriving DecidableEq, Repr

namespace Kind

def integerText? (s : String) : Option Int :=
  let (negative, digits) := Decimal.splitSign true s.toList
  if digits.isEmpty || !digits.all Decimal.isFigure then none
  else some (if negative then -(Decimal.figures digits : Int) else Decimal.figures digits)

def integer? : Json → Option Int
  | .number (.integer n) => some n
  | .text s => integerText? s
  | _ => none

def double? : Json → Option Float
  | .number n => some n.toDouble
  | .text "NaN" => some (0 / 0)
  | .text "inf" => some (1 / 0)
  | .text "-inf" => some (-1 / 0)
  | .text s => (Decimal.Literal.ofChars? s.toList).map (·.toDouble)
  | _ => none

def char? : Json → Option Char
  | .text s => match s.toList with
    | [c] => some c
    | _ => none
  | _ => none

def texts? : Json → Option (List String)
  | .array items => items.mapM Json.text?
  | _ => none

def read? : Kind → Json → Option Value
  | json, j => some (.json j)
  | bool, .bool b => some (.bool b)
  | char, j => (char? j).map .char
  | text, .text s => some (.text s)
  | integer t, j => (integer? j).bind fun n => if t.holds n then some (.integer t n) else none
  | single, j => (double? j).map fun x => .single x.toFloat32
  | double, j => (double? j).map .double
  | sequence, .array items => some (.sequence items)
  | textSet .sorted, j => (texts? j).map fun ts => .textSet .sorted (Value.sortTexts ts.eraseDups)
  | textSet .insertion, j => (texts? j).map fun ts => .textSet .insertion ts.eraseDups
  | table, .object members => some (.table members)
  | reference, .null => some (.reference none)
  | reference, .text s => some (.reference (some s))
  | _, _ => none

/-- Documents and references have a null of their own; for them only what is missing is absent. -/
def hasNull : Kind → Bool
  | json => true
  | reference => true
  | _ => false

def readMember? (k : Kind) : Option Json → Option Value
  | none => none
  | some .null => if k.hasNull then k.read? .null else none
  | some j => k.read? j

def readNeeded? (k : Kind) (member : Option Json) : Option Value := k.read? (member.getD .null)

end Kind

def FieldType.read? (t : FieldType) (member : Option Json) : Option Content :=
  if t.optional then some (.optional (t.kind.readMember? member))
  else (t.kind.readNeeded? member).map .plain

end Vetting
