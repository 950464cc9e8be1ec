import Vetting.Rule.Content
import Vetting.Rule.Length
import Vetting.Rule.Order
import Vetting.Value.Inspect

/-! The ready-made rules. An absent value satisfies them all, but for the rule that it be there. -/

namespace Vetting

inductive Rule where
  | length (rule : LengthRule)
  | content (rule : TextRule)
  | order (rule : OrderRule Json)
  | equalTo (operand : Json)
  | differentFrom (operand : Json)
  | absent
  | present

structure Judgement where
  satisfied : Bool
  message : String

namespace Rule

def name : Rule → RuleName
  | length r => r.name
  | content r => r.name
  | order r => r.name
  | equalTo _ => .equalTo
  | differentFrom _ => .differentFrom
  | absent => .absent
  | present => .present

/-- Judges a value that is there. A value that the rule does not speak of is not judged. -/
def judge : Rule → Value → Option Judgement
  | length r, v => v.length?.map fun (unit, n) => ⟨r.accepts n, r.message unit⟩
  | content r, v => v.text?.map fun s => ⟨r.accepts s, r.message⟩
  | order r, v =>
    v.quantity?.bind fun q => (r.readBounds? v).map fun r => ⟨r.accepts q, r.message⟩
  | equalTo j, v => (v.kind.read? j).map fun w => ⟨v == w, "Must be equal to " ++ w.inspect⟩
  | differentFrom j, v =>
    (v.kind.read? j).map fun w => ⟨!(v == w), "Must be different from " ++ w.inspect⟩
  | absent, _ => none
  | present, _ => none

def judgeContent (r : Rule) (c : Content) : Option Judgement :=
  match r, c with
  | absent, .optional v => some ⟨v.isNone, "Must be null"⟩
  | present, .optional v => some ⟨v.isSome, "Must not be null"⟩
  | r, c => c.present?.bind r.judge

end Rule

def Node.apply (n : Node Content) (r : Rule) : Registry Constraint :=
  let judgement := r.judgeContent n.value
  n.judge (judgement.map (·.satisfied)) r.name ((judgement.map (·.message)).getD "")

end Vetting
