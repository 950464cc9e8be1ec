import Vetting.Value.Basic

/-! Predicates, as blocks state them: conditions on the document that stands for a value. -/

namespace Vetting

abbrev Context := Option Json

inductive Refusal where
  | failed (error : String)
  | panicked (text : String)
deriving DecidableEq, Repr

def Refusal.text : Refusal → String
  | failed error => error
  | panicked text => text

inductive Predicate where
  | constant (holds : Bool)
  | equalTo (value : Json)
  | above (bound : Float)
  | below (bound : Float)
  | present (expected : Bool)
  /-- The value is not among the items of the context. -/
  | free
  | refusing (refusal : Refusal)

namespace Predicate

def holds (context : Context) (j : Json) : Predicate → Except Refusal Bool
  | constant b => .ok b
  | equalTo k => .ok (j == k)
  | above bound => .ok (j.double?.any (bound < ·))
  | below bound => .ok (j.double?.any (· < bound))
  | present expected => .ok (!(j == .null) == expected)
  | free => .ok (!((context.map Json.items).getD []).contains j)
  | refusing r => .error r

end Predicate

end Vetting
