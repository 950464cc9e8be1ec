import Vetting.Block.Event
import Vetting.Block.Request

/-! The state of a session: its runs and what was done with them, what its names stand for, and what
its statements have answered. -/

namespace Vetting

abbrev Bindings (α : Type) := List (Name × α)

namespace Bindings

variable {α : Type}

def get? (b : Bindings α) (x : Name) : Option α := b.lookup x

def erase (b : Bindings α) (x : Name) : Bindings α := b.filter (·.1 ≠ x)

def set (b : Bindings α) (x : Name) (a : α) : Bindings α := (x, a) :: b.erase x

end Bindings

/-- A constraint that has been started and not been awaited yet; nothing is recorded of it. -/
structure Future where
  node : Node Content
  satisfied : Bool
  origin : Origin

structure Scope where
  nodes : Bindings (Node Content)
  constraints : Bindings Constraint
  futures : Bindings Future

def Scope.empty : Scope := ⟨[], [], []⟩

structure State where
  runs : Runs
  deeds : Array Deed
  scope : Scope
  events : Array Event

def State.initial : State := ⟨.none, #[], .empty, #[]⟩

inductive Halt where
  | failed (error : String)
  | misused (misuse : Misuse)
  | panicked (text : String)
  | abandoned
deriving DecidableEq

/-- An action on a session, which may end the block that it stands in. What it did before stays. -/
abbrev Action := ExceptT Halt (StateM State)

namespace Action

def emit (e : Event) : Action Unit := modify fun s => { s with events := s.events.push e }

def attempt (q : Request) : Action (Except Misuse q.Answer) :=
  modifyGet fun s =>
    let (answer, runs) := q.perform.run s.runs
    (answer, { s with runs, deeds := s.deeds.push (.ask q) })

def insist (q : Request) : Action q.Answer := do
  match ← attempt q with
  | .ok a => return a
  | .error m => throw (.misused m)

def node? (x : Name) : Action (Option (Node Content)) := return (← get).scope.nodes.get? x

def constraint? (x : Name) : Action (Option Constraint) := return (← get).scope.constraints.get? x

def bindNode (x : Name) (n : Node Content) : Action Unit :=
  modify fun s => { s with scope := { s.scope with nodes := s.scope.nodes.set x n } }

def bindConstraint (x : Option Name) (c : Constraint) : Action Unit :=
  match x with
  | none => pure ()
  | some x =>
    modify fun s => { s with scope := { s.scope with constraints := s.scope.constraints.set x c } }

def dropConstraint (x : Name) : Action Unit :=
  modify fun s => { s with scope := { s.scope with constraints := s.scope.constraints.erase x } }

def bindFuture (x : Name) (f : Future) : Action Unit :=
  modify fun s => { s with scope := { s.scope with futures := s.scope.futures.set x f } }

def takeFuture (x : Name) : Action (Option Future) :=
  modifyGet fun s =>
    (s.scope.futures.get? x,
      { s with scope := { s.scope with futures := s.scope.futures.erase x } })

def withNode (x : Name) (act : Node Content → Action Unit) : Action Unit := do
  match ← node? x with
  | some n => act n
  | none => emit .unbound

def withConstraint (x : Name) (act : Constraint → Action Unit) : Action Unit := do
  match ← constraint? x with
  | some c => act c
  | none => emit .unbound

def settle (reaction : Reaction) (q : Request) : Action Unit := do
  match ← attempt q, reaction with
  | .ok _, _ => emit .accepted
  | .error m, .answer => emit (.misuse m none)
  | .error m, .unwind => throw (.misused m)

end Action

end Vetting
