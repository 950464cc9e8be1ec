import Vetting.Rule.Basic

/-! What is asked of runs through nodes and constraints, and what is done with runs altogether. -/

namespace Vetting

inductive Request where
  | declare (node : Node Content) (satisfied : Bool) (origin : Origin)
  | apply (node : Node Content) (rule : Rule)
  | otherwise (constraint : Constraint) (message : String)
  | register (node : Node Content) (constraint : Constraint)
  | report (node : Node Content) (violation : Violation)

namespace Request

abbrev Answer : Request → Type
  | declare .. => Constraint
  | apply .. => Constraint
  | otherwise .. => Constraint
  | register .. => Unit
  | report .. => Unit

def perform : (q : Request) → Registry q.Answer
  | declare n satisfied origin => n.declare satisfied origin
  | apply n rule => n.apply rule
  | otherwise c message => c.otherwise message
  | register n c => n.register c
  | report n v => n.report v

end Request

/-- What happens to the runs of a session. A run that is unwound or abandoned is never completed. -/
inductive Deed where
  | start
  | ask (request : Request)
  | complete (run : RunId) (default : String)

end Vetting
