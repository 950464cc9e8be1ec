import Vetting.Block.Suspension
import Vetting.Session

/-! Runs of rules that may suspend. A run is driven by the one task that awaits it, which may drop
it before it has come to an end. -/

namespace Vetting

namespace Validator

def runSuspending (v : Validator) (latency : State → Nat) (wakes : Nat) (subject context : Json) :
    StateM State Outcome :=
  let mode := Mode.suspending latency
  let nested := v.library.enterIn mode Library.depthLimit
  v.runBlock (fun root => (v.rules.carryOut mode nested context root).drive wakes) subject

def validateSuspending (v : Validator) (latency : State → Nat) (wakes : Nat)
    (subject context : Json) : Outcome :=
  ((v.runSuspending latency wakes subject context).run .initial).1

end Validator

namespace SessionStep

def resultSuspending (latency : State → Nat) (wakes : Nat) :
    SessionStep → StateM State (Option (Outcome ⊕ BatchOutcome))
  | run v subject context => return some (.inl (← v.runSuspending latency wakes subject context))
  | step => step.result

def performSuspending (step : SessionStep) (latency : State → Nat) (wakes : Nat) :
    StateM State SessionAnswer := do
  modify fun s => { s with events := #[] }
  let result ← step.resultSuspending latency wakes
  return ⟨(← get).events, result⟩

end SessionStep

end Vetting
