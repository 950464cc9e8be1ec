import Vetting.Proofs.Block.Faithful

/-! Blocks are honest: every effect is, statements are made of effects, and rules that apply one
another by their names are executed to a depth. -/

namespace Vetting

open Vetting.Action

variable {roots : Node Content → Prop}

namespace Effect

theorem plain_answer (p : Predicate) (context : Context) (c : Content) :
    Plain roots (p.answer context c) := by
  unfold Predicate.answer
  split
  · exact honest_pure fun _ _ => trivial
  · exact honest_throw _

theorem plain_record {n : Node Content} (hn : n.Rooted roots) (target : Option Name)
    (satisfied : Bool) (origin : Origin) (called : Option Bool) :
    Plain roots (record n target satisfied origin called) :=
  (honest_declare hn satisfied origin).bind fun c =>
    (honest_bindConstraint target c).bind fun _ => plain_emit _

theorem plain_derive (source target : Name) (step : Derivation) :
    Plain roots (derive source target step) := by
  refine honest_withNode fun n hn => ?_
  split
  · rename_i m hm
    exact (plain_bindNode target (hn.step hm)).bind fun _ => plain_emit _
  · exact honest_throw _

theorem plain_ask (node : Name) (question : Question) : Plain roots (ask node question) := by
  refine honest_withNode fun n _ => ?_
  cases question with
  | copies => exact plain_emit _
  | inspection => exact plain_emit _
  | sameAs other => exact honest_withNode fun m _ => plain_emit _
  | distinct others => exact honest_get.bind fun s => (plain_emit _).pre fun _ _ => trivial

theorem plain_apply (node : Name) (target : Option Name) (rule : Rule) :
    Plain roots (apply node target rule) :=
  honest_withNode fun _ hn => (honest_apply hn rule).bind fun c =>
    (honest_bindConstraint target c).bind fun _ => plain_emit _

theorem plain_constrain (context : Context) (node : Name) (target : Option Name) (form : Form)
    (site : Nat) (predicate : Predicate) (propagates : Bool) :
    Plain roots (constrain context node target form site predicate propagates) := by
  refine honest_withNode fun n hn => ?_
  have ha : Plain roots (predicate.answer context n.value) :=
    plain_answer predicate context n.value
  cases form with
  | always => exact ha.bind fun b => plain_record hn _ _ _ _
  | suspending => exact ha.bind fun b => plain_record hn _ _ _ _
  | ifPresent =>
    dsimp only
    split
    · exact plain_record hn _ _ _ _
    · exact ha.bind fun b => plain_record hn _ _ _ _
  | fallible =>
    dsimp only
    split
    · exact plain_record hn _ _ _ _
    · split
      · exact honest_throw _
      · exact plain_emit _
    · exact honest_throw _

theorem plain_start (context : Context) (node target : Name) (site : Nat) (predicate : Predicate) :
    Plain roots (start context node target site predicate) :=
  honest_withNode fun n hn => (plain_answer predicate context n.value).bind fun b =>
    (plain_bindFuture (f := ⟨n, b, .site .suspending site⟩) target hn).bind fun _ => plain_emit _

theorem plain_await (future : Name) (target : Option Name) :
    Plain roots (await future target) := by
  refine (honest_takeFuture future).bind fun f s hs hf => ?_
  cases f with
  | some f => exact plain_record (hf f rfl) target _ _ _ s hs trivial
  | none => exact plain_emit _ s hs trivial

theorem plain_otherwise (constraint : Name) (message : String) (reaction : Reaction) :
    Plain roots (otherwise constraint message reaction) := by
  refine plain_withConstraint fun c => (honest_dropConstraint constraint c).bind fun _ => ?_
  refine (honest_otherwise c message).bind fun a => ?_
  cases a with
  | ok d => exact (honest_bindConstraint (some constraint) d).bind fun _ => plain_emit _
  | error m =>
    cases reaction with
    | answer => exact (plain_emit _).pre fun _ _ => trivial
    | unwind => exact honest_throw _

theorem plain_inspect (constraint : Name) : Plain roots (inspect constraint) :=
  plain_withConstraint fun _ => (plain_emit _).pre fun _ _ => trivial

theorem plain_resolve (constraint : Name) : Plain roots (resolve constraint) :=
  plain_withConstraint fun c => (honest_dropConstraint constraint c).bind fun _ =>
    (plain_emit _).pre fun _ _ => trivial

theorem plain_sameOrigin (first second : Name) : Plain roots (sameOrigin first second) :=
  plain_withConstraint fun _ =>
    (plain_withConstraint fun _ => (plain_emit _).pre fun _ _ => trivial).pre fun _ _ => trivial

theorem plain_register (node constraint : Name) (reaction : Reaction) :
    Plain roots (register node constraint reaction) :=
  plain_withConstraint fun c => honest_withNode fun _ hn =>
    honest_register constraint hn c reaction

theorem plain_report (node : Name) (path : Option Path) (message : String) (reaction : Reaction) :
    Plain roots (report node path message reaction) :=
  honest_withNode fun _ hn => Action.plain_report hn _ reaction

theorem plain_choose (condition : Condition) {act : Bool → Action Unit}
    (h : ∀ b, Plain roots (act b)) : Plain roots (choose condition act) := by
  have ht : ∀ taken, Plain roots (do emit (.branched taken); act taken) := fun taken =>
    (plain_emit _).bind fun _ => h taken
  cases condition with
  | satisfied constraint =>
    rw [choose_satisfied]
    exact plain_withConstraint fun c => (ht _).pre fun _ _ => trivial
  | sameNodes first second =>
    rw [choose_sameNodes]
    exact honest_withNode fun n _ => honest_withNode fun m _ => ht _

theorem plain_traverse (way : Traversal) (node element : Name) {act : Action Unit}
    (h : Plain roots act) : Plain roots (traverse way node element act) := by
  rw [traverse_eq]
  refine honest_withNode fun n hn =>
    Honest.bind (Plain.forM fun m hm => ?_) fun _ => plain_emit _
  exact (plain_bindNode element (hn.element hm)).bind fun _ => (plain_emit _).bind fun _ => h

theorem plain_together (group : Grouping Name) (member : Name) {act : Action Unit}
    (h : Plain roots act) : Plain roots (together group member act) := by
  rw [together_eq]
  refine honest_get.bind fun s t ht hs => ?_
  split
  · rename_i ns hm
    have hns : Plain roots (ns.forM fun n => do bindNode member n; act) := Plain.forM fun n hn =>
      (plain_bindNode member (hs.nodes n (Bindings.mem_values_of_mapM hm n hn))).bind fun _ => h
    exact Honest.bind (plain_emit _) (fun _ => hns) t ht trivial
  · exact plain_emit _ t ht trivial

end Effect

def Nested.Plain (roots : Node Content → Prop) (nested : Nested) : Prop :=
  ∀ rules inner n, n.Rooted roots → Action.Plain roots (nested rules inner n)

mutual

theorem Statement.plain_execute {nested : Nested} (h : Nested.Plain roots nested)
    (context : Context) :
    ∀ s : Statement, Plain roots (Statement.execute nested context s)
  | .derive source target step => Effect.plain_derive source target step
  | .ask node question => Effect.plain_ask node question
  | .apply node target rule => Effect.plain_apply node target rule
  | .constrain node target form site predicate propagates =>
    Effect.plain_constrain context node target form site predicate propagates
  | .start node target site predicate => Effect.plain_start context node target site predicate
  | .await future target => Effect.plain_await future target
  | .otherwise constraint message reaction => Effect.plain_otherwise constraint message reaction
  | .inspect constraint => Effect.plain_inspect constraint
  | .resolve constraint => Effect.plain_resolve constraint
  | .sameOrigin first second => Effect.plain_sameOrigin first second
  | .register node constraint reaction => Effect.plain_register node constraint reaction
  | .report node path message reaction => Effect.plain_report node path message reaction
  | .branch condition yes no => by
    rw [Statement.execute_branch]
    refine Effect.plain_choose condition fun taken => ?_
    split
    · exact Block.plain_execute h context yes
    · exact Block.plain_execute h context no
  | .each node element way body => by
    rw [Statement.execute_each]
    exact Effect.plain_traverse way node element (Block.plain_execute h context body)
  | .together group member body => by
    rw [Statement.execute_together]
    exact Effect.plain_together group member (Block.plain_execute h context body)
  | .nest node rules inner => by
    rw [Statement.execute_nest]
    exact honest_withNode fun n hn => h rules inner n hn
  | .fail error => honest_throw (.failed error)
  | .suspend => honest_pure fun _ _ => trivial
  | .hang => honest_throw .abandoned

theorem Block.plain_execute {nested : Nested} (h : Nested.Plain roots nested) (context : Context) :
    ∀ ss : List Statement, Plain roots (Block.execute nested context ss)
  | [] => by
    rw [Block.execute_nil]
    exact honest_pure fun _ _ => trivial
  | s :: ss => by
    rw [Block.execute_cons]
    exact (Statement.plain_execute h context s).bind fun _ => Block.plain_execute h context ss

end

theorem RuleSet.plain_execute {nested : Nested} (h : Nested.Plain roots nested) (rules : RuleSet)
    (context : Json) {n : Node Content} (hn : n.Rooted roots) :
    Plain roots (rules.execute nested context n) :=
  (plain_bindNode rules.root hn).bind fun _ => Block.plain_execute h _ rules.block

namespace Library

theorem plain_enter (library : Library) (depth : Nat) :
    Nested.Plain roots (library.enter depth) := by
  -- The rules entered apply others by names at the next depth, whatever the rules and the node.
  induction depth with
  | zero => exact fun _ _ _ _ => honest_throw _
  | succ depth ih =>
    intro rules context n hn
    rw [enter_succ]
    split
    · exact plain_emit _
    · exact (plain_emit _).bind fun _ => (RuleSet.plain_execute ih _ context hn).bind fun _ =>
        plain_emit _

theorem plain_nested (library : Library) : Nested.Plain roots library.nested :=
  library.plain_enter depthLimit

end Library

end Vetting
