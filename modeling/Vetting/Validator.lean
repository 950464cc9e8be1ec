import Vetting.Block.Execution

/-! Validators: rules with a configuration and the library that they call other rules from, and the
runs that apply them to subjects. -/

namespace Vetting

structure Validator where
  rules : RuleSet
  configuration : Configuration
  library : Library

/-- What becomes of a run. A run that is unwound or abandoned is never completed: nothing is
reported, but its nodes and constraints go on working. -/
inductive Outcome where
  | success (subject : Json)
  | failure (report : Report)
  | error (error : String)
  | panicked (text : String)
  | abandoned

namespace Outcome

def ofViolations (subject : Json) (violations : List Violation) : Outcome :=
  match Report.ofList? violations with
  | none => success subject
  | some report => failure report

end Outcome

namespace Validator

def openRun (v : Validator) (subject : Json) : StateM State (Node Content) :=
  modifyGet fun s =>
    let (run, runs) := s.runs.start
    (⟨.plain (.json subject), v.configuration.rootPath, run⟩,
      { s with runs, deeds := s.deeds.push .start })

def closeRun (v : Validator) (run : RunId) : StateM State (List Violation) :=
  modifyGet fun s =>
    let default := v.configuration.defaultMessage
    let (violations, runs) := s.runs.complete run default
    (violations, { s with runs, deeds := s.deeds.push (.complete run default) })

/-- The run is completed when its block has returned, be it with an error, in which case nothing
else is reported. -/
def endRun (v : Validator) (subject : Json) (run : RunId) : Except Halt Unit → StateM State Outcome
  | .ok () => return .ofViolations subject (← v.closeRun run)
  | .error (.failed error) => do
    let _ ← v.closeRun run
    return .error error
  | .error (.misused m) => return .panicked m.message
  | .error (.panicked text) => return .panicked text
  | .error .abandoned => return .abandoned

def runBlock (v : Validator) (block : Node Content → Action Unit) (subject : Json) :
    StateM State Outcome := do
  let root ← v.openRun subject
  v.endRun subject root.run (← (block root).run)

def run (v : Validator) (subject context : Json) : StateM State Outcome :=
  v.runBlock (v.rules.execute v.library.nested context) subject

def validate (v : Validator) (subject context : Json) : Outcome :=
  ((v.run subject context).run .initial).1

end Validator

inductive BatchOutcome where
  | all (outcomes : List Outcome)
  | stopped (outcome : Outcome)

namespace Outcome

def isVerdict : Outcome → Bool
  | success _ => true
  | failure _ => true
  | _ => false

end Outcome

/-- Applies the rules to each subject on its own. The first run without a verdict, in the order of
the subjects, stops the batch. -/
def Validator.batch (v : Validator) (subjects : List Json) (context : Json) : BatchOutcome :=
  let outcomes := subjects.map (v.validate · context)
  match outcomes.find? (!·.isVerdict) with
  | some outcome => .stopped outcome
  | none => .all outcomes

end Vetting
