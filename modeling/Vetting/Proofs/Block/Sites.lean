import Vetting.Proofs.Block.Record

/-! Where declarations are made. Blocks declare their predicates at sites; the places of ready-made
rules belong to the rules, which are never without a message. -/

namespace Vetting

def Origin.IsSite (origin : Origin) : Prop := ∃ form number, origin = .site form number

def Request.Sited : Request → Prop
  | declare _ _ origin => origin.IsSite
  | _ => True

structure State.Sited (s : State) : Prop where
  futures : ∀ f ∈ s.scope.futures.values, f.origin.IsSite
  requests : ∀ q, .ask q ∈ s.deeds.toList → q.Sited

theorem State.Sited.frame {s t : State} (h : s.Sited) (hf : t.scope.futures = s.scope.futures)
    (hd : t.deeds = s.deeds) : t.Sited := ⟨hf ▸ h.futures, hd ▸ h.requests⟩

theorem State.Sited.push {s t : State} (h : s.Sited) {d : Deed}
    (hf : t.scope.futures = s.scope.futures) (hd : t.deeds = s.deeds.push d)
    (hq : ∀ q, d = .ask q → q.Sited) : t.Sited := by
  refine ⟨hf ▸ h.futures, fun q hm => ?_⟩
  rw [hd, Array.toList_push] at hm
  rcases List.mem_append.mp hm with hm | hm
  · exact h.requests q hm
  · exact hq q (List.mem_singleton.mp hm).symm

namespace Action

variable {α β : Type}

def Sited (act : Action α) : Prop := ∀ s, s.Sited → (act.run s).2.Sited

theorem sited_pure (a : α) : Sited (pure a : Action α) := fun _ h => h

theorem sited_throw (halt : Halt) : Sited (throw halt : Action α) := fun _ h => h

theorem Sited.bind {act : Action α} {f : α → Action β} (h : Sited act) (hf : ∀ a, Sited (f a)) :
    Sited (act >>= f) := by
  intro s hs
  have ht := h s hs
  rw [run_bind]
  generalize act.run s = r at ht
  obtain ⟨_ | a, t⟩ := r
  · exact ht
  · exact hf a t ht

theorem sited_get : Sited get := fun _ h => h

theorem sited_emit (e : Event) : Sited (emit e) := fun _ h => h.frame rfl rfl

theorem sited_bindNode (x : Name) (n : Node Content) : Sited (bindNode x n) :=
  fun _ h => h.frame rfl rfl

theorem sited_bindConstraint (x : Option Name) (c : Constraint) : Sited (bindConstraint x c) := by
  cases x with
  | none => exact sited_pure ()
  | some x => exact fun _ h => h.frame rfl rfl

theorem sited_dropConstraint (x : Name) : Sited (dropConstraint x) := fun _ h => h.frame rfl rfl

theorem sited_bindFuture (x : Name) {f : Future} (hf : f.origin.IsSite) :
    Sited (bindFuture x f) := fun _ h => ⟨Bindings.forall_values_set h.futures x hf, h.requests⟩

theorem sited_withNode {x : Name} {act : Node Content → Action Unit} (h : ∀ n, Sited (act n)) :
    Sited (withNode x act) := by
  intro s hs
  rw [run_withNode]
  split
  · exact h _ s hs
  · exact sited_emit _ s hs

theorem sited_withConstraint {x : Name} {act : Constraint → Action Unit}
    (h : ∀ c, Sited (act c)) : Sited (withConstraint x act) := by
  intro s hs
  rw [run_withConstraint]
  split
  · exact h _ s hs
  · exact sited_emit _ s hs

theorem sited_forM {l : List β} {act : β → Action Unit} (h : ∀ b, Sited (act b)) :
    Sited (l.forM act) := by
  induction l with
  | nil => exact sited_pure ()
  | cons b l ih => exact (h b).bind fun _ => ih

theorem sited_attempt {q : Request} (hq : q.Sited) : Sited (attempt q) := by
  intro s h
  refine h.push (d := .ask q) rfl rfl fun r hr => ?_
  cases hr
  exact hq

theorem sited_insist {q : Request} (hq : q.Sited) : Sited (insist q) := by
  refine (sited_attempt hq).bind fun a => ?_
  cases a with
  | ok a => exact sited_pure a
  | error m => exact sited_throw _

theorem sited_settle (reaction : Reaction) {q : Request} (hq : q.Sited) :
    Sited (settle reaction q) := by
  refine (sited_attempt hq).bind fun a => ?_
  cases a with
  | ok a => exact sited_emit _
  | error m =>
    cases reaction with
    | answer => exact sited_emit _
    | unwind => exact sited_throw _

end Action

open Vetting.Action

namespace Effect

theorem sited_answer (p : Predicate) (context : Context) (c : Content) :
    Sited (p.answer context c) := by
  unfold Predicate.answer
  split
  · exact sited_pure _
  · exact sited_throw _

theorem sited_record (n : Node Content) (target : Option Name) (satisfied : Bool)
    {origin : Origin} (ho : origin.IsSite) (called : Option Bool) :
    Sited (record n target satisfied origin called) :=
  (sited_insist (q := .declare n satisfied origin) ho).bind fun c =>
    (sited_bindConstraint target c).bind fun _ => sited_emit _

theorem sited_derive (source target : Name) (step : Derivation) :
    Sited (derive source target step) := by
  refine sited_withNode fun n => ?_
  split
  · exact (sited_bindNode _ _).bind fun _ => sited_emit _
  · exact sited_throw _

theorem sited_ask (node : Name) (question : Question) : Sited (ask node question) := by
  refine sited_withNode fun n => ?_
  cases question with
  | copies => exact sited_emit _
  | inspection => exact sited_emit _
  | sameAs other => exact sited_withNode fun m => sited_emit _
  | distinct others => exact sited_get.bind fun s => sited_emit _

theorem sited_apply (node : Name) (target : Option Name) (rule : Rule) :
    Sited (apply node target rule) :=
  sited_withNode fun n => (sited_insist (q := .apply n rule) trivial).bind fun c =>
    (sited_bindConstraint target c).bind fun _ => sited_emit _

theorem sited_constrain (context : Context) (node : Name) (target : Option Name) (form : Form)
    (site : Nat) (predicate : Predicate) (propagates : Bool) :
    Sited (constrain context node target form site predicate propagates) := by
  refine sited_withNode fun n => ?_
  have ho : ∀ form, (Origin.site form site).IsSite := fun form => ⟨form, site, rfl⟩
  have ha : Sited (predicate.answer context n.value) := sited_answer predicate context n.value
  cases form with
  | always => exact ha.bind fun b => sited_record n _ b (ho _) _
  | suspending => exact ha.bind fun b => sited_record n _ b (ho _) _
  | ifPresent =>
    dsimp only
    split
    · exact sited_record n _ _ (ho _) _
    · exact ha.bind fun b => sited_record n _ b (ho _) _
  | fallible =>
    dsimp only
    split
    · exact sited_record n _ _ (ho _) _
    · split
      · exact sited_throw _
      · exact sited_emit _
    · exact sited_throw _

theorem sited_start (context : Context) (node target : Name) (site : Nat)
    (predicate : Predicate) : Sited (start context node target site predicate) :=
  sited_withNode fun n => (sited_answer predicate context n.value).bind fun b =>
    (sited_bindFuture (f := ⟨n, b, .site .suspending site⟩) target ⟨_, _, rfl⟩).bind fun _ =>
      sited_emit _

theorem sited_await (future : Name) (target : Option Name) : Sited (await future target) := by
  intro s h
  have ht : ((takeFuture future).run s).2.Sited :=
    ⟨fun f hf => h.futures f (Bindings.mem_values_erase hf), h.requests⟩
  rw [await, run_bind]
  cases hf : s.scope.futures.get? future with
  | some f =>
    have hr : (takeFuture future).run s = (.ok (some f), ((takeFuture future).run s).2) :=
      congrArg (fun g => (Except.ok g, ((takeFuture future).run s).2)) hf
    rw [hr]
    exact sited_record f.node target f.satisfied
      (h.futures f (Bindings.mem_values_of_get? hf)) none _ ht
  | none =>
    have hr : (takeFuture future).run s = (.ok none, ((takeFuture future).run s).2) :=
      congrArg (fun g => (Except.ok g, ((takeFuture future).run s).2)) hf
    rw [hr]
    exact sited_emit _ _ ht

theorem sited_otherwise (constraint : Name) (message : String) (reaction : Reaction) :
    Sited (otherwise constraint message reaction) := by
  refine sited_withConstraint fun c => (sited_dropConstraint constraint).bind fun _ =>
    (sited_attempt (q := .otherwise c message) trivial).bind fun a => ?_
  cases a with
  | ok d => exact (sited_bindConstraint _ d).bind fun _ => sited_emit _
  | error m =>
    cases reaction with
    | answer => exact sited_emit _
    | unwind => exact sited_throw _

theorem sited_choose (condition : Condition) {act : Bool → Action Unit} (h : ∀ b, Sited (act b)) :
    Sited (choose condition act) := by
  have ht : ∀ taken, Sited (do emit (.branched taken); act taken) := fun taken =>
    (sited_emit _).bind fun _ => h taken
  cases condition with
  | satisfied constraint =>
    rw [choose_satisfied]
    exact sited_withConstraint fun c => ht _
  | sameNodes first second =>
    rw [choose_sameNodes]
    exact sited_withNode fun n => sited_withNode fun m => ht _

theorem sited_traverse (way : Traversal) (node element : Name) {act : Action Unit}
    (h : Sited act) : Sited (traverse way node element act) := by
  rw [traverse_eq]
  refine sited_withNode fun n => (sited_forM fun m => ?_).bind fun _ => sited_emit _
  exact (sited_bindNode element m).bind fun _ => (sited_emit _).bind fun _ => h

theorem sited_together (group : Grouping Name) (member : Name) {act : Action Unit}
    (h : Sited act) : Sited (together group member act) := by
  rw [together_eq]
  refine sited_get.bind fun s => ?_
  split
  · exact (sited_emit _).bind fun _ => sited_forM fun n => (sited_bindNode member n).bind fun _ => h
  · exact sited_emit _

end Effect

def Nested.Sited (nested : Nested) : Prop := ∀ rules inner n, Action.Sited (nested rules inner n)

mutual

theorem Statement.sited_execute {nested : Nested} (h : nested.Sited) (context : Context) :
    ∀ s : Statement, Sited (Statement.execute nested context s)
  | .derive source target step => Effect.sited_derive source target step
  | .ask node question => Effect.sited_ask node question
  | .apply node target rule => Effect.sited_apply node target rule
  | .constrain node target form site predicate propagates =>
    Effect.sited_constrain context node target form site predicate propagates
  | .start node target site predicate => Effect.sited_start context node target site predicate
  | .await future target => Effect.sited_await future target
  | .otherwise constraint message reaction => Effect.sited_otherwise constraint message reaction
  | .inspect _ => sited_withConstraint fun _ => sited_emit _
  | .resolve constraint => sited_withConstraint fun _ =>
    (sited_dropConstraint constraint).bind fun _ => sited_emit _
  | .sameOrigin _ _ => sited_withConstraint fun _ => sited_withConstraint fun _ => sited_emit _
  | .register _ _ reaction => sited_withConstraint fun _ => sited_withNode fun _ =>
    sited_settle reaction trivial
  | .report _ _ _ reaction => sited_withNode fun _ => sited_settle reaction trivial
  | .branch condition yes no => by
    rw [Statement.execute_branch]
    refine Effect.sited_choose condition fun taken => ?_
    split
    · exact Block.sited_execute h context yes
    · exact Block.sited_execute h context no
  | .each node element way body => by
    rw [Statement.execute_each]
    exact Effect.sited_traverse way node element (Block.sited_execute h context body)
  | .together group member body => by
    rw [Statement.execute_together]
    exact Effect.sited_together group member (Block.sited_execute h context body)
  | .nest node rules inner => by
    rw [Statement.execute_nest]
    exact sited_withNode fun n => h rules inner n
  | .fail error => sited_throw (.failed error)
  | .suspend => sited_pure ()
  | .hang => sited_throw .abandoned

theorem Block.sited_execute {nested : Nested} (h : nested.Sited) (context : Context) :
    ∀ ss : List Statement, Sited (Block.execute nested context ss)
  | [] => by
    rw [Block.execute_nil]
    exact sited_pure ()
  | s :: ss => by
    rw [Block.execute_cons]
    exact (Statement.sited_execute h context s).bind fun _ => Block.sited_execute h context ss

end

theorem RuleSet.sited_execute {nested : Nested} (h : nested.Sited) (rules : RuleSet)
    (context : Json) (n : Node Content) : Sited (rules.execute nested context n) :=
  (sited_bindNode _ _).bind fun _ => Block.sited_execute h _ rules.block

theorem Library.sited_enter (library : Library) (depth : Nat) : (library.enter depth).Sited := by
  induction depth with
  | zero => exact fun _ _ _ => sited_throw _
  | succ depth ih =>
    intro rules context n
    rw [enter_succ]
    split
    · exact sited_emit _
    · exact (sited_emit _).bind fun _ => (RuleSet.sited_execute ih _ context n).bind fun _ =>
        sited_emit _

namespace Validator

theorem sited_play (v : Validator) (subject context : Json) {s : State} (h : s.Sited) :
    (v.play subject context s).2.Sited :=
  v.rules.sited_execute (v.library.sited_enter _) context _ _
    (h.push (d := .start) rfl rfl fun _ => nofun)

theorem sited_run (v : Validator) (subject context : Json) {s : State} (h : s.Sited) :
    ((v.run subject context).run s).2.Sited := by
  have hp := v.sited_play subject context h
  rcases v.run_leaves subject context s with ⟨-, hl⟩ | ⟨-, hl⟩ <;> rw [hl]
  · exact hp.push (d := .complete _ _) rfl rfl fun _ => nofun
  · exact hp

theorem sited_of_mem_requests (v : Validator) (subject context : Json) {s : State} (h : s.Sited)
    {q : Request} (hq : q ∈ v.requests subject context s) : q.Sited :=
  (v.sited_play subject context h).requests q (v.mem_deeds_of_mem_requests subject context hq)

end Validator

theorem SessionStep.sited_outside (library : Library) (block : Block) {s : State} (h : s.Sited) :
    ((block.forM (executeAlone library)).run s).2.Sited := by
  induction block generalizing s with
  | nil => exact h
  | cons st block ih =>
    refine ih (s := ((executeAlone library st).run s).2) ?_
    obtain ⟨events, he⟩ := run_executeAlone library st s
    rw [he]
    exact (Statement.sited_execute (library.sited_enter _) none st s h).frame rfl rfl

theorem Session.sited_state (steps : List SessionStep) : (state steps).Sited := by
  induction steps using List.reverseRecOn with
  | nil => exact ⟨fun _ h => absurd h List.not_mem_nil, fun _ h => absurd h List.not_mem_nil⟩
  | append_singleton steps step ih =>
    rw [state_append]
    have hc : State.Sited { state steps with events := #[] } := ih.frame rfl rfl
    cases step with
    | run v subject context => exact v.sited_run subject context hc
    | batch v subjects context => exact hc
    | outside library block => exact SessionStep.sited_outside library block hc

end Vetting
