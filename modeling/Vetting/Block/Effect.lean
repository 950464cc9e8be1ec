import Vetting.Block.Scope

/-! What the statements of a block do, one by one, but for those with blocks within them. -/

namespace Vetting

def Predicate.answer (p : Predicate) (context : Context) (c : Content) : Action Bool :=
  match p.holds context c.toJson with
  | .ok b => return b
  | .error r => throw (.panicked r.text)

def Traversal.nodes (way : Traversal) (n : Node Content) : List (Node Content) :=
  let contents := match way with
    | items => n.value.items
    | elements => n.value.elements
  contents.map (n.derive none)

namespace Effect

open Vetting.Action

def record (n : Node Content) (target : Option Name) (satisfied : Bool) (origin : Origin)
    (called : Option Bool) : Action Unit := do
  let c ← insist (.declare n satisfied origin)
  bindConstraint target c
  emit (.constraint c called)

def derive (source target : Name) (step : Derivation) : Action Unit :=
  withNode source fun n => do
    match step.follow? n with
    | some m =>
      bindNode target m
      emit (.node m (step.calls n.value))
    | none => throw (.panicked "unreadable value")

def ask (node : Name) (question : Question) : Action Unit :=
  withNode node fun n =>
    match question with
    | .copies => emit (.copies n.value)
    | .inspection => emit (.text n.inspect)
    | .sameAs other => withNode other fun m => emit (.truth (n.value == m.value))
    | .distinct others => do
      let ms := others.filterMap (← get).scope.nodes.get?
      emit (.number (Content.countDistinct (n.value :: ms.map (·.value))))

def apply (node : Name) (target : Option Name) (rule : Rule) : Action Unit :=
  withNode node fun n => do
    let c ← insist (.apply n rule)
    bindConstraint target c
    emit (.constraint c none)

/-- A predicate is asked before anything is recorded. On an absent value it is not asked where the
form says so, and the constraint is satisfied. -/
def constrain (context : Context) (node : Name) (target : Option Name) (form : Form) (site : Nat)
    (predicate : Predicate) (propagates : Bool) : Action Unit :=
  withNode node fun n => do
    let origin := .site form site
    match form with
    | .always => record n target (← predicate.answer context n.value) origin (some true)
    | .suspending => record n target (← predicate.answer context n.value) origin none
    | .ifPresent =>
      if n.value.present?.isNone then record n target true origin (some false)
      else record n target (← predicate.answer context n.value) origin (some true)
    | .fallible =>
      match predicate.holds context n.value.toJson with
      | .ok satisfied => record n target satisfied origin (some true)
      | .error (.failed error) =>
        if propagates then throw (.failed error) else emit (.refused error)
      | .error (.panicked text) => throw (.panicked text)

def start (context : Context) (node target : Name) (site : Nat) (predicate : Predicate) :
    Action Unit :=
  withNode node fun n => do
    let satisfied ← predicate.answer context n.value
    bindFuture target ⟨n, satisfied, .site .suspending site⟩
    emit .started

def await (future : Name) (target : Option Name) : Action Unit := do
  match ← takeFuture future with
  | some f => record f.node target f.satisfied f.origin none
  | none => emit .unbound

/-- The constraint is used up, and what comes of it takes its name again. -/
def otherwise (constraint : Name) (message : String) (reaction : Reaction) : Action Unit :=
  withConstraint constraint fun c => do
    dropConstraint constraint
    match ← attempt (.otherwise c message), reaction with
    | .ok d, _ =>
      bindConstraint (some constraint) d
      emit (.constraint d (some c.asks))
    | .error m, .answer => emit (.misuse m (some c.asks))
    | .error m, .unwind => throw (.misused m)

def inspect (constraint : Name) : Action Unit :=
  withConstraint constraint fun c => emit (.inspected c)

def resolve (constraint : Name) : Action Unit :=
  withConstraint constraint fun c => do
    dropConstraint constraint
    emit (.truth c.satisfied)

def sameOrigin (first second : Name) : Action Unit :=
  withConstraint first fun c => withConstraint second fun d => emit (.truth (c.origin == d.origin))

def register (node constraint : Name) (reaction : Reaction) : Action Unit :=
  withConstraint constraint fun c => withNode node fun n => settle reaction (.register n c)

def report (node : Name) (path : Option Path) (message : String) (reaction : Reaction) :
    Action Unit :=
  withNode node fun n => settle reaction (.report n ⟨path.getD n.path, message⟩)

end Effect

end Vetting
