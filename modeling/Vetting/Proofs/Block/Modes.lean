import Vetting.Proofs.Block.Likeness
import Vetting.Proofs.Block.Record

/-! Comparing modes of execution. Two modes that agree on the statements which have to do with
waiting agree on all blocks, whatever agreement means, as long as it is kept from one action to the
next. Direct execution is one of the modes. -/

namespace Vetting

open Vetting.Action

mutual

def Statement.leaves : Statement → List Statement
  | .branch _ yes no => Block.leaves yes ++ Block.leaves no
  | .each _ _ _ body => Block.leaves body
  | .together _ _ body => Block.leaves body
  | s => [s]

def Block.leaves : List Statement → List Statement
  | [] => []
  | s :: ss => Statement.leaves s ++ Block.leaves ss

end

def Library.leaves (library : Library) : List Statement :=
  library.flatMap fun entry => Block.leaves entry.2.block

theorem Library.leaves_of_lookup {library : Library} {name : Name} {r : RuleSet}
    (h : library.lookup name = some r) : Block.leaves r.block ⊆ library.leaves := by
  intro s hs
  obtain ⟨before, after, rfl, -⟩ := List.lookup_eq_some_iff.mp h
  exact List.mem_flatMap.mpr ⟨(name, r), by simp, hs⟩

def Validator.leaves (v : Validator) : List Statement :=
  Block.leaves v.rules.block ++ v.library.leaves

namespace Mode

variable {m : Type → Type u} {m' : Type → Type v} [Monad m] [Monad m']

/-- Agreement of two modes on leaves of one kind. What two computations that agree return is the
same. -/
structure Agrees (mode : Mode m) (mode' : Mode m') (kind : Statement → Prop)
    (R : {α : Type} → m α → m' α → Prop) : Prop where
  pure {α : Type} (a : α) : R (pure a) (pure a)
  bind {α β : Type} {x : m α} {y : m' α} {k : α → m β} {l : α → m' β} :
    R x y → (∀ a, R (k a) (l a)) → R (x >>= k) (y >>= l)
  act {α : Type} {x : Action α} : Indifferent x → R (mode.act x) (mode'.act x)
  constrain (context : Context) {node : Name} {target : Option Name} {form : Form} {site : Nat}
      {predicate : Predicate} {propagates : Bool} :
    kind (.constrain node target form site predicate propagates) →
      R (mode.constrain context node target form site predicate propagates)
        (mode'.constrain context node target form site predicate propagates)
  start (context : Context) {node target : Name} {site : Nat} {predicate : Predicate} :
    kind (.start node target site predicate) →
      R (mode.start context node target site predicate)
        (mode'.start context node target site predicate)
  await (future : Name) (target : Option Name) : R (mode.await future target)
    (mode'.await future target)
  suspend : R mode.suspend mode'.suspend
  hang : R mode.hang mode'.hang

namespace Agrees

variable {mode : Mode m} {mode' : Mode m'} {kind : Statement → Prop}
  {R : {α : Type} → m α → m' α → Prop} (h : mode.Agrees mode' kind R)

include h

theorem emit (e : Event) : R (mode.act (emit e)) (mode'.act (emit e)) :=
  h.act fun _ => parallel_emit e e

theorem forM {α : Type} (as : List α) {k : α → m Unit} {l : α → m' Unit}
    (hk : ∀ a, R (k a) (l a)) : R (as.forM k) (as.forM l) := by
  induction as with
  | nil => exact h.pure ()
  | cons a as ih => exact h.bind (hk a) fun _ => ih

theorem withNode (x : Name) {act : Node Content → m Unit} {act' : Node Content → m' Unit}
    (ha : ∀ n, R (act n) (act' n)) : R (mode.withNode x act) (mode'.withNode x act') := by
  refine h.bind (h.act (indifferent_node? x)) fun n => ?_
  cases n with
  | some n => exact ha n
  | none => exact h.emit .unbound

theorem choose (condition : Condition) {act : Bool → m Unit} {act' : Bool → m' Unit}
    (ha : ∀ b, R (act b) (act' b)) :
    R (mode.choose condition act) (mode'.choose condition act') := by
  have ht : ∀ b, R (do mode.act (Action.emit (.branched b)); act b)
      (do mode'.act (Action.emit (.branched b)); act' b) := fun b =>
    h.bind (h.emit _) fun _ => ha b
  cases condition with
  | satisfied constraint =>
    refine h.bind (h.act (indifferent_satisfied? constraint)) fun b => ?_
    cases b with
    | some b => exact ht b
    | none => exact h.emit .unbound
  | sameNodes first second =>
    exact h.withNode first fun n => h.withNode second fun k => ht (n.value == k.value)

theorem traverse (way : Traversal) (node element : Name) {act : m Unit} {act' : m' Unit}
    (ha : R act act') : R (mode.traverse way node element act)
      (mode'.traverse way node element act') := by
  refine h.withNode node fun n => h.bind (h.forM _ fun k => ?_) fun _ => h.emit _
  exact h.bind (h.act fun _ => parallel_bindNode element k) fun _ => h.bind (h.emit _) fun _ => ha

theorem together (group : Grouping Name) (member : Name) {act : m Unit} {act' : m' Unit}
    (ha : R act act') : R (mode.together group member act) (mode'.together group member act') := by
  refine h.bind (h.act (indifferent_nodes? group.members)) fun ns => ?_
  cases ns with
  | some ns =>
    refine h.bind (h.emit _) fun _ => h.forM ns fun n => ?_
    exact h.bind (h.act fun _ => parallel_bindNode member n) fun _ => ha
  | none => exact h.emit .unbound

end Agrees

end Mode

section

variable {m : Type → Type u} {m' : Type → Type v} [Monad m] [Monad m'] {mode : Mode m}
  {mode' : Mode m'} {kind : Statement → Prop} {R : {α : Type} → m α → m' α → Prop}
  (h : mode.Agrees mode' kind R) {nested : Name → Json → Node Content → m Unit}
  {nested' : Name → Json → Node Content → m' Unit}

include h

mutual

theorem Statement.agrees_carryOut
    (hn : ∀ rules inner n, R (nested rules inner n) (nested' rules inner n)) (context : Context) :
    ∀ s : Statement, (∀ l ∈ s.leaves, kind l) →
      R (s.carryOut mode nested context) (s.carryOut mode' nested' context)
  | .derive source target step, _ => h.act (Effect.indifferent_derive source target step)
  | .ask node question, _ => h.act (Effect.indifferent_ask node question)
  | .apply node target rule, _ => h.act (Effect.indifferent_apply node target rule)
  | .constrain .., hk => h.constrain context (hk _ (List.mem_singleton_self _))
  | .start .., hk => h.start context (hk _ (List.mem_singleton_self _))
  | .await future target, _ => h.await future target
  | .otherwise constraint message reaction, _ =>
    h.act (Effect.indifferent_otherwise constraint message reaction)
  | .inspect constraint, _ => h.act (Effect.indifferent_inspect constraint)
  | .resolve constraint, _ => h.act (Effect.indifferent_resolve constraint)
  | .sameOrigin first second, _ => h.act (Effect.indifferent_sameOrigin first second)
  | .register node constraint reaction, _ =>
    h.act (Effect.indifferent_register node constraint reaction)
  | .report node path message reaction, _ =>
    h.act (Effect.indifferent_report node path message reaction)
  | .branch condition yes no, hk => by
    rw [Statement.leaves, List.forall_mem_append] at hk
    rw [Statement.carryOut, Statement.carryOut]
    refine h.choose condition fun taken => ?_
    cases taken with
    | true => exact Block.agrees_carryOut hn context yes hk.1
    | false => exact Block.agrees_carryOut hn context no hk.2
  | .each node element way body, hk => by
    rw [Statement.carryOut, Statement.carryOut]
    exact h.traverse way node element (Block.agrees_carryOut hn context body hk)
  | .together group member body, hk => by
    rw [Statement.carryOut, Statement.carryOut]
    exact h.together group member (Block.agrees_carryOut hn context body hk)
  | .nest node rules inner, _ => by
    rw [Statement.carryOut, Statement.carryOut]
    exact h.withNode node fun n => hn rules inner n
  | .fail error, _ => h.act fun _ => parallel_throw Eq (.failed error)
  | .suspend, _ => h.suspend
  | .hang, _ => h.hang

theorem Block.agrees_carryOut
    (hn : ∀ rules inner n, R (nested rules inner n) (nested' rules inner n)) (context : Context) :
    ∀ ss : List Statement, (∀ l ∈ Block.leaves ss, kind l) →
      R (Block.carryOut mode nested context ss) (Block.carryOut mode' nested' context ss)
  | [], _ => by
    rw [Block.carryOut, Block.carryOut]
    exact h.pure ()
  | s :: ss, hk => by
    rw [Block.leaves, List.forall_mem_append] at hk
    rw [Block.carryOut, Block.carryOut]
    exact h.bind (Statement.agrees_carryOut hn context s hk.1) fun _ =>
      Block.agrees_carryOut hn context ss hk.2

end

theorem RuleSet.agrees_carryOut
    (hn : ∀ rules inner n, R (nested rules inner n) (nested' rules inner n)) {r : RuleSet}
    (hk : ∀ l ∈ Block.leaves r.block, kind l) (context : Json) (n : Node Content) :
    R (r.carryOut mode nested context n) (r.carryOut mode' nested' context n) :=
  h.bind (h.act fun _ => parallel_bindNode r.root n) fun _ =>
    Block.agrees_carryOut h hn _ r.block hk

theorem Library.agrees_enterIn {library : Library} (hk : ∀ l ∈ library.leaves, kind l) :
    ∀ depth rules context n,
      R (library.enterIn mode depth rules context n) (library.enterIn mode' depth rules context n)
  | 0, _, _, _ => h.hang
  | depth + 1, rules, context, n => by
    rw [Library.enterIn, Library.enterIn]
    dsimp only
    cases hr : library.lookup rules with
    | none => exact h.emit .unbound
    | some r =>
      have hl : ∀ l ∈ Block.leaves r.block, kind l := fun l hl => hk l (leaves_of_lookup hr hl)
      refine h.bind (h.emit .entered) fun _ => h.bind ?_ fun _ => h.emit .left
      exact RuleSet.agrees_carryOut h (Library.agrees_enterIn hk depth) hl context n

end

theorem Action.EndAlike.conclude_eq {f : Renaming} {r r' : Except Halt Unit × State}
    (h : EndAlike (fun _ _ s t => t.runs = f.runs s.runs) r r') {v v' : Validator}
    (hd : v'.configuration = v.configuration) (subject : Json) (run : RunId) :
    v'.conclude subject run r' = v.conclude subject run r := by
  cases h with
  | returned hr =>
    rw [Validator.conclude_ok, Validator.conclude_ok, hr, hd, Renaming.ledger_runs,
      Renaming.violations_ledger]
  | halted halt s t => cases halt <;> rfl

end Vetting
