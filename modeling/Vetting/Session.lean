import Vetting.Validator

/-! Sessions: runs, batches and single statements one after another, sharing names. -/

namespace Vetting

inductive SessionStep where
  | run (validator : Validator) (subject context : Json)
  | batch (validator : Validator) (subjects : List Json) (context : Json)
  /-- Statements outside of any run, without a context. One that is unwound does not keep the next
  from being executed. -/
  | outside (library : Library) (block : Block)

structure SessionAnswer where
  events : Array Event
  result : Option (Outcome ⊕ BatchOutcome)

namespace SessionStep

def answerEnd : Except Halt Unit → StateM State Unit
  | .ok () => pure ()
  | .error (.failed error) => discard <| (Action.emit (.failed error)).run
  | .error (.misused m) => discard <| (Action.emit (.panicked m.message)).run
  | .error (.panicked text) => discard <| (Action.emit (.panicked text)).run
  | .error .abandoned => pure ()

def executeAlone (library : Library) (s : Statement) : StateM State Unit := do
  answerEnd (← (s.execute library.nested none).run)

def result : SessionStep → StateM State (Option (Outcome ⊕ BatchOutcome))
  | run v subject context => return some (.inl (← v.run subject context))
  | batch v subjects context => return some (.inr (v.batch subjects context))
  | outside library block => do
    block.forM (executeAlone library)
    return none

def perform (step : SessionStep) : StateM State SessionAnswer := do
  modify fun s => { s with events := #[] }
  let result ← step.result
  return ⟨(← get).events, result⟩

end SessionStep

namespace Session

def answers (steps : List SessionStep) : List SessionAnswer :=
  (steps.mapM SessionStep.perform |>.run .initial).1

end Session

end Vetting
