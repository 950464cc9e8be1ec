import Vetting.Block.Effect

/-! Carrying out blocks. Every statement answers with one event when it is done, after those of the
statements within it; one that ends the block answers nothing. How the actions on a session enter
there, and what is made of the statements that have to do with waiting, is left to a mode; all other
statements mean the same in every mode. What a block does when it applies rules by their name is
left open, and closed by a library up to a depth. -/

namespace Vetting

open Vetting.Action

namespace Action

def nodes? (xs : List Name) : Action (Option (List (Node Content))) :=
  return xs.mapM (← get).scope.nodes.get?

def satisfied? (x : Name) : Action (Option Bool) := return (← constraint? x).map (·.satisfied)

end Action

structure Mode (m : Type → Type u) where
  act : {α : Type} → Action α → m α
  constrain : Context → (node : Name) → (target : Option Name) → Form → (site : Nat) → Predicate →
    (propagates : Bool) → m Unit
  start : Context → (node target : Name) → (site : Nat) → Predicate → m Unit
  await : (future : Name) → (target : Option Name) → m Unit
  suspend : m Unit
  hang : m Unit

namespace Mode

variable {m : Type → Type u} [Monad m] (mode : Mode m)

def withNode (x : Name) (act : Node Content → m Unit) : m Unit := do
  match ← mode.act (node? x) with
  | some n => act n
  | none => mode.act (emit .unbound)

def choose (condition : Condition) (act : Bool → m Unit) : m Unit := do
  let take := fun taken => do
    mode.act (emit (.branched taken))
    act taken
  match condition with
  | .satisfied constraint =>
    match ← mode.act (satisfied? constraint) with
    | some satisfied => take satisfied
    | none => mode.act (emit .unbound)
  | .sameNodes first second =>
    mode.withNode first fun n => mode.withNode second fun k => take (n.value == k.value)

def traverse (way : Traversal) (node element : Name) (act : m Unit) : m Unit :=
  mode.withNode node fun n => do
    let ns := way.nodes n
    ns.forM fun k => do
      mode.act (bindNode element k)
      mode.act (emit (.node k none))
      act
    mode.act (emit (.counted ns.length))

def together (group : Grouping Name) (member : Name) (act : m Unit) : m Unit := do
  match ← mode.act (nodes? group.members) with
  | some ns =>
    mode.act (emit (.grouped ns))
    ns.forM fun n => do
      mode.act (bindNode member n)
      act
  | none => mode.act (emit .unbound)

end Mode

section

variable {m : Type → Type u} [Monad m] (mode : Mode m)
  (nested : Name → Json → Node Content → m Unit) (context : Context)

mutual

def Statement.carryOut : Statement → m Unit
  | .derive source target step => mode.act (Effect.derive source target step)
  | .ask node question => mode.act (Effect.ask node question)
  | .apply node target rule => mode.act (Effect.apply node target rule)
  | .constrain node target form site predicate propagates =>
    mode.constrain context node target form site predicate propagates
  | .start node target site predicate => mode.start context node target site predicate
  | .await future target => mode.await future target
  | .otherwise constraint message reaction =>
    mode.act (Effect.otherwise constraint message reaction)
  | .inspect constraint => mode.act (Effect.inspect constraint)
  | .resolve constraint => mode.act (Effect.resolve constraint)
  | .sameOrigin first second => mode.act (Effect.sameOrigin first second)
  | .register node constraint reaction => mode.act (Effect.register node constraint reaction)
  | .report node path message reaction => mode.act (Effect.report node path message reaction)
  | .branch condition yes no =>
    mode.choose condition fun taken => if taken then Block.carryOut yes else Block.carryOut no
  | .each node element way body => mode.traverse way node element (Block.carryOut body)
  | .together group member body => mode.together group member (Block.carryOut body)
  | .nest node rules inner => mode.withNode node (nested rules inner)
  | .fail error => mode.act (throw (.failed error))
  | .suspend => mode.suspend
  | .hang => mode.hang

def Block.carryOut : List Statement → m Unit
  | [] => pure ()
  | s :: ss => do
    Statement.carryOut s
    Block.carryOut ss

end

def RuleSet.carryOut (rules : RuleSet) (context : Json) (n : Node Content) : m Unit := do
  mode.act (bindNode rules.root n)
  Block.carryOut mode nested (if rules.takesContext then some context else none) rules.block

end

/-- Applies the rules of a name. Within them, rules may be applied `depth - 1` deep; a block that
asks for more is given up, like one that waits for ever. -/
def Library.enterIn {m : Type → Type u} [Monad m] (mode : Mode m) (library : Library) :
    (depth : Nat) → Name → Json → Node Content → m Unit
  | 0 => fun _ _ _ => mode.hang
  | depth + 1 => fun rules context n => do
    match library.lookup rules with
    | none => mode.act (emit .unbound)
    | some r =>
      mode.act (emit .entered)
      r.carryOut mode (library.enterIn mode depth) context n
      mode.act (emit .left)

end Vetting
