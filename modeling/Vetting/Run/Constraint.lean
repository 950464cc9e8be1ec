import Vetting.Run.Registry

/-! Constraints: the outcome of one predicate on one node. An unsatisfied one is registered as soon
as it is made, and may be given a message later. -/

namespace Vetting

structure Constraint where
  satisfied : Bool
  path : Path
  message : Option String
  /-- The message is a rule's own, which the first message given replaces. -/
  overridable : Bool
  origin : Origin
  run : RunId
  /-- The entry of this constraint was added by it. -/
  owned : Bool
deriving DecidableEq

namespace Constraint

def entry (c : Constraint) : Entry := ⟨c.path, c.message, some c.origin⟩

def declare (satisfied : Bool) (path : Path) (run : RunId) (origin : Origin) :
    Registry Constraint := do
  Registry.requireOpen run path
  let owned ← if satisfied then pure false else Registry.insert run ⟨path, none, some origin⟩
  return { satisfied, path, message := none, overridable := false, origin, run, owned }

def asks (c : Constraint) : Bool := !c.satisfied

def refuses (c : Constraint) (message : String) : Bool :=
  !c.overridable && c.message.any (· ≠ message)

def otherwise (c : Constraint) (message : String) : Registry Constraint := do
  -- What changes nothing is accepted before the run is looked at, be it over or not.
  if c.satisfied || c.message = some message then return c
  if c.refuses message then
    throw (.conflictingMessage c.path (c.message.getD "") message)
  let owned ← Registry.attach c.run c.entry c.owned { c.entry with message := some message }
  return { c with message := some message, overridable := false, owned }

def yielding (c : Constraint) : Constraint := { c with overridable := c.message.isSome }

end Constraint

end Vetting
