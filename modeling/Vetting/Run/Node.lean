import Vetting.Json.Basic
import Vetting.Run.Constraint

/-! Nodes: values under examination, with their paths and the runs they belong to. -/

namespace Vetting

structure Node (α : Type) where
  value : α
  path : Path
  run : RunId

namespace Node

variable {α β : Type}

def derive (n : Node α) (name : Option String) (value : β) : Node β :=
  ⟨value, n.path.push (name.getD ""), n.run⟩

def field (n : Node α) (name : String) (get : α → β) : Node β := n.derive (some name) (get n.value)

def map (n : Node α) (f : α → β) : Node β := n.derive none (f n.value)

def fieldThrough (n : Node (Option α)) (name : String) (get : α → β) : Node (Option β) :=
  n.derive (some name) (n.value.map get)

def optionalField (n : Node (Option α)) (name : String) (get : α → Option β) : Node (Option β) :=
  n.derive (some name) (n.value.bind get)

def flatten (n : Node (Option (Option α))) : Node (Option α) := n.derive none n.value.join

def key (n : Node (Option Json)) (name : String) : Node (Option Json) :=
  n.optionalField name (·.member? name)

def elements (n : Node (List α)) : List (Node α) := n.value.map fun item => n.derive none item

def register (n : Node α) (c : Constraint) : Registry Unit := do
  Registry.requireOpen n.run n.path
  if c.run ≠ n.run then throw (.foreignConstraint c.path)
  if !c.satisfied then discard <| Registry.insert n.run c.entry

def report (n : Node α) (v : Violation) : Registry Unit :=
  discard <| Registry.insert n.run (.ofViolation v)

def declare (n : Node α) (satisfied : Bool) (origin : Origin) : Registry Constraint :=
  Constraint.declare satisfied n.path n.run origin

/-- Records the outcome of a ready-made rule with its own message, which a message given later
replaces. A rule has no outcome on a value that is absent, and is then satisfied. -/
def judge (n : Node α) (outcome : Option Bool) (name : RuleName) (message : String) :
    Registry Constraint := do
  let c ← n.declare (outcome.getD true) (.rule name)
  return (← c.otherwise message).yielding

@[simp]
theorem path_derive (n : Node α) (name : Option String) (value : β) :
    (n.derive name value).path = n.path.push (name.getD "") := rfl

@[simp]
theorem run_derive (n : Node α) (name : Option String) (value : β) :
    (n.derive name value).run = n.run := rfl

@[simp]
theorem value_derive (n : Node α) (name : Option String) (value : β) :
    (n.derive name value).value = value := rfl

end Node

end Vetting
