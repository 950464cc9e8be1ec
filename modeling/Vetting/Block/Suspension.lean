import Vetting.Block.Mode

/-! Blocks that may suspend. A block is then a computation that stops at some places until it is
woken up; all that it does in between are actions on the session, as they are elsewhere. -/

namespace Vetting

open Vetting.Action

inductive Resumable (α : Type) : Type 1 where
  | done (a : α)
  | act {β : Type} (action : Action β) (next : β → Resumable α)
  | suspend (next : Resumable α)
  | hang

namespace Resumable

variable {α β : Type}

def bind : Resumable α → (α → Resumable β) → Resumable β
  | done a, f => f a
  | act x next, f => act x fun b => (next b).bind f
  | suspend next, f => suspend (next.bind f)
  | hang, _ => hang

instance : Monad Resumable where
  pure := done
  bind := bind

def perform (x : Action α) : Resumable α := act x done

def sleep : (wakes : Nat) → Resumable Unit
  | 0 => done ()
  | n + 1 => suspend (sleep n)

/-- Suspends until something is known; how often in vain may depend on all that has happened. -/
def wait (latency : State → Nat) : Resumable Unit := do
  let s ← perform get
  sleep (latency s)

/-- The task that awaits the computation wakes it up so many times. Then it drops it, and what has
not been done by then is abandoned. -/
def drive : Resumable α → (wakes : Nat) → Action α
  | done a, _ => pure a
  | act x next, wakes => do (next (← x)).drive wakes
  | suspend _, 0 => throw .abandoned
  | suspend next, wakes + 1 => next.drive wakes
  | hang, _ => throw .abandoned

end Resumable

open Resumable

namespace Mode

def constrainAwaiting (latency : State → Nat) (context : Context) (node : Name)
    (target : Option Name) (site : Nat) (predicate : Predicate) : Resumable Unit := do
  match ← perform (node? node) with
  | some n =>
    -- The predicate is asked at once, but nothing is recorded before its outcome is awaited.
    let satisfied ← perform (predicate.answer context n.value)
    wait latency
    perform (Effect.record n target satisfied (.site .suspending site) none)
  | none => perform (emit .unbound)

def awaitFuture (latency : State → Nat) (future : Name) (target : Option Name) :
    Resumable Unit := do
  match ← perform (takeFuture future) with
  | some f =>
    wait latency
    perform (Effect.record f.node target f.satisfied f.origin none)
  | none => perform (emit .unbound)

def suspending (latency : State → Nat) : Mode Resumable where
  act := perform
  constrain context node target form site predicate propagates :=
    match form with
    | .suspending => constrainAwaiting latency context node target site predicate
    | form => perform (Effect.constrain context node target form site predicate propagates)
  start context node target site predicate :=
    perform (Effect.start context node target site predicate)
  await := awaitFuture latency
  suspend := sleep 1
  hang := .hang

end Mode

end Vetting
