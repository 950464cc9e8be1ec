import Vetting.Block.Mode

/-! Executing blocks: carrying them out in plain actions on a session, where nothing ever suspends.
-/

namespace Vetting

open Vetting.Action

def Mode.direct : Mode Action where
  act := id
  constrain := Effect.constrain
  start := Effect.start
  await := Effect.await
  suspend := pure ()
  hang := throw .abandoned

abbrev Nested := Name → Json → Node Content → Action Unit

namespace Effect

def choose (condition : Condition) (act : Bool → Action Unit) : Action Unit :=
  Mode.direct.choose condition act

def traverse (way : Traversal) (node element : Name) (act : Action Unit) : Action Unit :=
  Mode.direct.traverse way node element act

def together (group : Grouping Name) (member : Name) (act : Action Unit) : Action Unit :=
  Mode.direct.together group member act

theorem choose_satisfied (constraint : Name) (act : Bool → Action Unit) :
    choose (.satisfied constraint) act = withConstraint constraint (fun c => do
      emit (.branched c.satisfied)
      act c.satisfied) := by
  change (constraint? constraint >>= fun c => pure (c.map (·.satisfied))) >>= _ =
    constraint? constraint >>= _
  rw [bind_assoc]
  refine congrArg (constraint? constraint >>= ·) (funext fun c => ?_)
  cases c with
  | none => rfl
  | some c => rfl

theorem choose_sameNodes (first second : Name) (act : Bool → Action Unit) :
    choose (.sameNodes first second) act = withNode first (fun n => withNode second fun m => do
      emit (.branched (n.value == m.value))
      act (n.value == m.value)) := rfl

theorem traverse_eq (way : Traversal) (node element : Name) (act : Action Unit) :
    traverse way node element act = withNode node (fun n => do
      (way.nodes n).forM fun m => do
        bindNode element m
        emit (.node m none)
        act
      emit (.counted (way.nodes n).length)) := rfl

theorem together_eq (group : Grouping Name) (member : Name) (act : Action Unit) :
    together group member act = (do
      match group.members.mapM (← get).scope.nodes.get? with
      | some ns =>
        emit (.grouped ns)
        ns.forM fun n => do
          bindNode member n
          act
      | none => emit .unbound) := rfl

end Effect

section

variable (nested : Nested) (context : Context)

def Statement.execute (s : Statement) : Action Unit := s.carryOut .direct nested context

def Block.execute (ss : List Statement) : Action Unit := Block.carryOut .direct nested context ss

theorem Block.execute_nil : Block.execute nested context [] = pure () := by
  rw [execute, carryOut]

theorem Block.execute_cons (s : Statement) (ss : List Statement) :
    Block.execute nested context (s :: ss) = (do
      Statement.execute nested context s
      Block.execute nested context ss) := by
  rw [execute, carryOut]
  rfl

namespace Statement

theorem execute_branch (condition : Condition) (yes no : Block) :
    execute nested context (.branch condition yes no) =
      Effect.choose condition fun taken =>
        if taken then Block.execute nested context yes else Block.execute nested context no := by
  rw [execute, carryOut]
  rfl

theorem execute_each (node element : Name) (way : Traversal) (body : Block) :
    execute nested context (.each node element way body) =
      Effect.traverse way node element (Block.execute nested context body) := by
  rw [execute, carryOut]
  rfl

theorem execute_together (group : Grouping Name) (member : Name) (body : Block) :
    execute nested context (.together group member body) =
      Effect.together group member (Block.execute nested context body) := by
  rw [execute, carryOut]
  rfl

theorem execute_nest (node rules : Name) (inner : Json) :
    execute nested context (.nest node rules inner) = withNode node (nested rules inner) := rfl

end Statement

end

def RuleSet.execute (nested : Nested) (rules : RuleSet) (context : Json) (n : Node Content) :
    Action Unit := rules.carryOut .direct nested context n

theorem RuleSet.execute_eq (nested : Nested) (rules : RuleSet) (context : Json)
    (n : Node Content) : rules.execute nested context n = (do
      bindNode rules.root n
      Block.execute nested (if rules.takesContext then some context else none) rules.block) := rfl

namespace Library

def enter (library : Library) (depth : Nat) : Nested := library.enterIn .direct depth

theorem enter_succ (library : Library) (depth : Nat) (rules : Name) (context : Json)
    (n : Node Content) : library.enter (depth + 1) rules context n =
      (match library.lookup rules with
      | none => emit .unbound
      | some r => do
        emit .entered
        r.execute (library.enter depth) context n
        emit .left) := rfl

/-- How deep rules may be applied within rules. The limit, and that a block is given up there, is
this model's own: the program that is modelled knows no such limit. -/
def depthLimit : Nat := 4096

def nested (library : Library) : Nested := library.enter depthLimit

end Library

end Vetting
