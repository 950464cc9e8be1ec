import Vetting.Block.Statement

/-! What the statements of a block answer. -/

namespace Vetting

inductive Event where
  /-- A node, and whether an accessor was called for it. -/
  | node (node : Node Content) (called : Option Bool)
  /-- A constraint, and whether a predicate or a message was asked for. -/
  | constraint (constraint : Constraint) (called : Option Bool)
  | misuse (misuse : Misuse) (called : Option Bool)
  | copies (content : Content)
  | text (text : String)
  | truth (value : Bool)
  | number (count : Nat)
  | inspected (constraint : Constraint)
  | refused (error : String)
  | accepted
  | unbound
  | branched (taken : Bool)
  | counted (count : Nat)
  | grouped (members : List (Node Content))
  | started
  | entered
  | left
  | panicked (text : String)
  | failed (error : String)

end Vetting
