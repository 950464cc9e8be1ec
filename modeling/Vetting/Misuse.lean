import Vetting.Path

/-! Ways of using the nodes and constraints of a run that are refused. -/

namespace Vetting

inductive Misuse where
  | runCompleted (path : Path)
  | foreignConstraint (path : Path)
  | conflictingMessage (path : Path) (existing attempted : String)
deriving DecidableEq

namespace Misuse

def path : Misuse → Path
  | runCompleted p => p
  | foreignConstraint p => p
  | conflictingMessage p _ _ => p

def message : Misuse → String
  | runCompleted p =>
    "constraint at '" ++ p.write ++ "' belongs to a validation run that already completed"
  | foreignConstraint p =>
    "constraint at '" ++ p.write ++ "' was registered on a node from a different validation run"
  | conflictingMessage p existing attempted =>
    "constraint at '" ++ p.write ++ "' already has the message \"" ++ existing ++
      "\", refusing \"" ++ attempted ++ "\""

def name : Misuse → String
  | runCompleted _ => "RunCompleted"
  | foreignConstraint _ => "ForeignConstraint"
  | conflictingMessage .. => "ConflictingMessage"

def inspect (m : Misuse) : String :=
  let place := ("path", m.path.inspect)
  match m with
  | conflictingMessage _ existing attempted =>
    Text.record m.name
      [place, ("existing", Text.quote existing), ("attempted", Text.quote attempted)]
  | _ => Text.record m.name [place]

end Misuse

end Vetting
