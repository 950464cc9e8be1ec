import Vetting.Proofs.Block.Modes

/-! Constraints that are started before they are awaited. What a predicate answers depends on the
value and the context alone, so it may be asked as late as the constraint is awaited: a run comes to
the outcome that it would have come to, had each started constraint been declared there. -/

namespace Vetting

open Vetting.Action

structure Pledge where
  node : Node Content
  context : Context
  site : Nat
  predicate : Predicate

namespace Pledge

def origin (p : Pledge) : Origin := .site .suspending p.site

def declare (p : Pledge) (target : Option Name) : Action Unit := do
  Effect.record p.node target (← p.predicate.answer p.context p.node.value) p.origin none

def settled (p : Pledge) : Future :=
  ⟨p.node, p.predicate.holds p.context p.node.value.toJson matches .ok true, p.origin⟩

end Pledge

abbrev Postponing := StateT (Bindings Pledge) Action

namespace Mode

def postponedStart (context : Context) (node target : Name) (site : Nat) (predicate : Predicate) :
    Postponing Unit := do
  match ← StateT.lift (node? node) with
  | some n =>
    modify (·.set target ⟨n, context, site, predicate⟩)
    StateT.lift (emit .started)
  | none => StateT.lift (emit .unbound)

def postponedAwait (future : Name) (target : Option Name) : Postponing Unit := do
  match ← modifyGet fun ps => (ps.get? future, ps.erase future) with
  | some p => StateT.lift (p.declare target)
  | none => StateT.lift (emit .unbound)

/-- Each started constraint is declared where it is awaited; one that never is, never is. -/
def postponing : Mode Postponing where
  act := StateT.lift
  constrain context node target form site predicate propagates :=
    StateT.lift (Effect.constrain context node target form site predicate propagates)
  start := postponedStart
  await := postponedAwait
  suspend := pure ()
  hang := StateT.lift (throw .abandoned)

end Mode

def Validator.validatePostponing (v : Validator) (subject context : Json) : Outcome :=
  let opened := (v.openRun subject).run .initial
  let block := v.rules.carryOut .postponing (v.library.enterIn .postponing Library.depthLimit)
    context opened.1
  v.conclude subject opened.1.run ((block.run' []).run opened.2)

def Predicate.Answers (p : Predicate) : Prop := ∀ context j, ∃ b, p.holds context j = .ok b

def Statement.started? : Statement → Option Predicate
  | .start _ _ _ predicate => some predicate
  | _ => none

def Validator.started (v : Validator) : List Predicate := v.leaves.filterMap Statement.started?

theorem Predicate.Answers.answer_eq {p : Predicate} (h : p.Answers) (context : Context)
    (c : Content) :
    p.answer context c = pure (p.holds context c.toJson matches .ok true) := by
  obtain ⟨b, hb⟩ := h context c.toJson
  rw [Predicate.answer, hb]
  cases b <;> rfl

def Renaming.refl : Renaming := ⟨id, Function.injective_id, fun _ => rfl⟩

/-- The second state has asked the predicates already that the first has not, all of which answer.
-/
structure Action.Owes (ps : Bindings Pledge) (s t : State) : Prop where
  answers : ∀ p ∈ ps.values, p.predicate.Answers
  relates : Renaming.refl.Relates [] (ps.mapValues Pledge.settled) s t

namespace Postponing

variable {α β : Type}

def Settles (x : Postponing α) (y : Action α) : Prop :=
  ∀ ps s t, Owes ps s t →
    EndAlike (fun r b s t => r.1 = b ∧ Owes r.2 s t) ((x.run ps).run s) (y.run t)

theorem settles_pure (a : α) : Settles (pure a) (pure a) := fun _ _ _ hs => .returned ⟨rfl, hs⟩

theorem settles_lift {x y : Action α} (h : Parallel .refl Eq x y) :
    Settles (StateT.lift x) y := by
  intro ps s t hs
  rw [← bind_pure y]
  exact (h _ _ s t hs.relates).bind fun _ _ _ _ hq => .returned ⟨hq.1, hs.answers, hq.2⟩

theorem Settles.bind {x : Postponing α} {y : Action α} {k : α → Postponing β}
    {l : α → Action β} (h : Settles x y) (hk : ∀ a, Settles (k a) (l a)) :
    Settles (x >>= k) (y >>= l) := by
  refine fun ps s t hs => (h ps s t hs).bind ?_
  rintro ⟨a, ps⟩ _ s t ⟨rfl, hs⟩
  exact hk a ps s t hs

theorem settles_bindFuture {p : Pledge} (hp : p.predicate.Answers) (x : Name) :
    Settles (modify (·.set x p)) (bindFuture x p.settled) := by
  intro ps s t hs
  have hr := hs.relates
  refine .returned ⟨rfl, Bindings.forall_values_set hs.answers x hp, hr.runs, hr.nodes,
    hr.constraints, hr.futures, ?_⟩
  change t.scope.futures.set x _ = _
  rw [hr.futures', Bindings.set_mapValues]

theorem settles_takeFuture (x : Name) {k : Option Pledge → Postponing β}
    {l : Option Future → Action β} (hn : Settles (k none) (l none))
    (hk : ∀ p : Pledge, p.predicate.Answers → Settles (k (some p)) (l (some p.settled))) :
    Settles (modifyGet (fun ps => (ps.get? x, ps.erase x)) >>= k) (takeFuture x >>= l) := by
  intro ps s t hs
  have hr := hs.relates
  have he : Owes (ps.erase x) s
      { t with scope := { t.scope with futures := t.scope.futures.erase x } } := by
    refine ⟨fun p hp => hs.answers p (Bindings.mem_values_erase hp), hr.runs, hr.nodes,
      hr.constraints, hr.futures, ?_⟩
    change t.scope.futures.erase x = _
    rw [hr.futures', Bindings.erase_mapValues]
  have hg : t.scope.futures.get? x = (ps.get? x).map Pledge.settled := by
    rw [hr.futures', Bindings.get?_mapValues]
  change EndAlike _ (((k (ps.get? x)).run (ps.erase x)).run s)
    ((l (t.scope.futures.get? x)).run _)
  rw [hg]
  cases hx : ps.get? x with
  | none => exact hn _ _ _ he
  | some p => exact hk p (hs.answers p (Bindings.mem_values_of_get? hx)) _ _ _ he

theorem settles_start {predicate : Predicate} (h : predicate.Answers) (context : Context)
    (node target : Name) (site : Nat) :
    Settles (Mode.postponedStart context node target site predicate)
      (Effect.start context node target site predicate) := by
  refine (settles_lift (indifferent_node? node _)).bind fun n => ?_
  cases n with
  | none => exact settles_lift (parallel_emit _ _)
  | some n =>
    dsimp only
    rw [h.answer_eq, pure_bind]
    exact (settles_bindFuture (p := ⟨n, context, site, predicate⟩) h target).bind fun _ =>
      settles_lift (parallel_emit _ _)

theorem settles_await (future : Name) (target : Option Name) :
    Settles (Mode.postponedAwait future target) (Effect.await future target) := by
  refine settles_takeFuture future (settles_lift (parallel_emit _ _)) fun p hp => ?_
  dsimp only
  rw [Pledge.declare, hp.answer_eq, pure_bind]
  exact settles_lift (Effect.parallel_record p.node target _ p.origin none none)

end Postponing

open Postponing

theorem Mode.postponing_agrees_direct :
    postponing.Agrees direct (fun l => ∀ p, l.started? = some p → p.Answers) Settles where
  pure := settles_pure
  bind h hk := h.bind hk
  act h := settles_lift (h _)
  constrain context node target _ _ predicate propagates _ :=
    settles_lift (Effect.parallel_constrain (f := .refl) rfl (.inl rfl) context node target
      predicate propagates)
  start context node target site predicate h :=
    settles_start (h predicate rfl) context node target site
  await := settles_await
  suspend := settles_pure ()
  hang := settles_lift (parallel_throw Eq .abandoned)

theorem Validator.validatePostponing_eq (v : Validator) (h : ∀ p ∈ v.started, p.Answers)
    (subject context : Json) :
    v.validatePostponing subject context = v.validate subject context := by
  have hk := List.forall_mem_append.mp fun l hl p hp =>
    h p (List.mem_filterMap.mpr ⟨l, hl, hp⟩)
  have hn := Library.agrees_enterIn Mode.postponing_agrees_direct hk.2 Library.depthLimit
  let opened := (v.openRun subject).run .initial
  have hs : Owes [] opened.2 opened.2 :=
    ⟨fun _ hp => absurd hp List.not_mem_nil, Renaming.refl.relates_opened v subject⟩
  have he := RuleSet.agrees_carryOut Mode.postponing_agrees_direct hn hk.1 context opened.1 []
    opened.2 opened.2 hs
  rw [validate, run_eq_conclude, validatePostponing, StateT.run', map_eq_pure_bind, play,
    ← bind_pure (v.rules.execute _ _ _)]
  refine ((he.bind fun r u s t hq => ?_).conclude_eq (f := .refl) rfl subject _).symm
  exact .returned hq.2.relates.runs

end Vetting
