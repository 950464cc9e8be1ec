import Vetting.Block.Mode
import Vetting.Proofs.Block.Bindings
import Vetting.Proofs.Block.Faithful
import Vetting.Proofs.Run.Renaming

/-! Two states of a session that differ in how declaring places are called. Nothing that a block
does tells them apart: it ends in the same way in both, and leaves such states again. What was
answered before is left aside, and so are the futures, which nothing touches but what starts or
awaits them. -/

namespace Vetting

open Vetting.Action

/-- The runs of the second state, and what its names stand for, are those of the first with their
places renamed. The futures of each stay as they are. -/
structure Renaming.Relates (f : Renaming) (fs gs : Bindings Future) (s t : State) : Prop where
  runs : t.runs = f.runs s.runs
  nodes : t.scope.nodes = s.scope.nodes
  constraints : t.scope.constraints = s.scope.constraints.mapValues f.constraint
  futures : s.scope.futures = fs
  futures' : t.scope.futures = gs

theorem Renaming.relates_opened (f : Renaming) (v : Validator) (subject : Json) :
    f.Relates [] [] ((v.openRun subject).run .initial).2 ((v.openRun subject).run .initial).2 :=
  ⟨rfl, rfl, rfl, rfl, rfl⟩

namespace Action

variable {α α' β β' : Type} {f : Renaming}

inductive EndAlike (Q : α → α' → State → State → Prop) :
    Except Halt α × State → Except Halt α' × State → Prop where
  | returned {a : α} {b : α'} {s t : State} : Q a b s t → EndAlike Q (.ok a, s) (.ok b, t)
  | halted (halt : Halt) (s t : State) : EndAlike Q (.error halt, s) (.error halt, t)

theorem EndAlike.mono {Q R : α → α' → State → State → Prop} {r : Except Halt α × State}
    {r' : Except Halt α' × State} (h : EndAlike Q r r') (hq : ∀ a b s t, Q a b s t → R a b s t) :
    EndAlike R r r' := by
  cases h with
  | returned h => exact .returned (hq _ _ _ _ h)
  | halted halt s t => exact .halted halt s t

theorem EndAlike.bind {Q : α → α' → State → State → Prop} {R : β → β' → State → State → Prop}
    {x : Action α} {y : Action α'} {k : α → Action β} {l : α' → Action β'} {s t : State}
    (h : EndAlike Q (x.run s) (y.run t))
    (hk : ∀ a b s t, Q a b s t → EndAlike R ((k a).run s) ((l b).run t)) :
    EndAlike R ((x >>= k).run s) ((y >>= l).run t) := by
  rw [run_bind, run_bind]
  generalize x.run s = r at h
  generalize y.run t = r' at h
  cases h with
  | returned h => exact hk _ _ _ _ h
  | halted halt s t => exact .halted halt s t

/-- In states that differ in their places the actions end in the same way, and in such states. What
they return is related. -/
def Parallel (f : Renaming) (v : α → α' → Prop) (x : Action α) (y : Action α') : Prop :=
  ∀ fs gs s t, f.Relates fs gs s t →
    EndAlike (fun a b s t => v a b ∧ f.Relates fs gs s t) (x.run s) (y.run t)

def Indifferent (x : Action α) : Prop := ∀ f : Renaming, Parallel f Eq x x

theorem parallel_pure {v : α → α' → Prop} {a : α} {b : α'} (h : v a b) :
    Parallel f v (pure a) (pure b) := fun _ _ _ _ hs => .returned ⟨h, hs⟩

theorem parallel_throw (v : α → α' → Prop) (halt : Halt) :
    Parallel f v (throw halt) (throw halt) := fun _ _ s t _ => .halted halt s t

theorem Parallel.bind {v : α → α' → Prop} {w : β → β' → Prop} {x : Action α} {y : Action α'}
    {k : α → Action β} {l : α' → Action β'} (h : Parallel f v x y)
    (hk : ∀ a b, v a b → Parallel f w (k a) (l b)) : Parallel f w (x >>= k) (y >>= l) :=
  fun fs gs s t hs => (h fs gs s t hs).bind fun a b s t hq => hk a b hq.1 fs gs s t hq.2

theorem parallel_emit (e e' : Event) : Parallel f Eq (emit e) (emit e') :=
  fun _ _ _ _ hs => .returned ⟨rfl, hs.runs, hs.nodes, hs.constraints, hs.futures, hs.futures'⟩

theorem parallel_bindNode (x : Name) (n : Node Content) :
    Parallel f Eq (bindNode x n) (bindNode x n) := fun _ _ _ _ hs =>
  .returned ⟨rfl, hs.runs, congrArg (·.set x n) hs.nodes, hs.constraints, hs.futures, hs.futures'⟩

theorem parallel_bindConstraint (x : Option Name) (c : Constraint) :
    Parallel f Eq (bindConstraint x c) (bindConstraint x (f.constraint c)) := by
  intro fs gs s t hs
  cases x with
  | none => exact .returned ⟨rfl, hs⟩
  | some x =>
    refine .returned ⟨rfl, hs.runs, hs.nodes, ?_, hs.futures, hs.futures'⟩
    change t.scope.constraints.set x _ = _
    rw [hs.constraints, Bindings.set_mapValues]

theorem parallel_dropConstraint (x : Name) :
    Parallel f Eq (dropConstraint x) (dropConstraint x) := by
  intro fs gs s t hs
  refine .returned ⟨rfl, hs.runs, hs.nodes, ?_, hs.futures, hs.futures'⟩
  change t.scope.constraints.erase x = _
  rw [hs.constraints, Bindings.erase_mapValues]

theorem parallel_nodes : Parallel f (fun s t => t.scope.nodes = s.scope.nodes) get get :=
  fun _ _ _ _ hs => .returned ⟨hs.nodes, hs⟩

theorem indifferent_node? (x : Name) : Indifferent (node? x) := fun _ =>
  parallel_nodes.bind fun _ _ h => parallel_pure (by rw [h])

theorem indifferent_nodes? (xs : List Name) : Indifferent (nodes? xs) := fun _ =>
  parallel_nodes.bind fun _ _ h => parallel_pure (by rw [h])

theorem parallel_constraint? (x : Name) :
    Parallel f (fun c d => d = c.map f.constraint) (constraint? x) (constraint? x) := by
  intro fs gs s t hs
  refine .returned ⟨?_, hs⟩
  rw [hs.constraints, Bindings.get?_mapValues]

theorem indifferent_satisfied? (x : Name) : Indifferent (satisfied? x) := fun f =>
  (parallel_constraint? x).bind fun c d h => parallel_pure (by
    rw [h, Option.map_map]
    rfl)

theorem Parallel.withNode {x : Name} {act act' : Node Content → Action Unit}
    (h : ∀ n, Parallel f Eq (act n) (act' n)) :
    Parallel f Eq (withNode x act) (withNode x act') := by
  refine (indifferent_node? x f).bind ?_
  rintro (_ | n) _ rfl
  · exact parallel_emit _ _
  · exact h n

theorem Parallel.withConstraint {x : Name} {act act' : Constraint → Action Unit}
    (h : ∀ c, Parallel f Eq (act c) (act' (f.constraint c))) :
    Parallel f Eq (withConstraint x act) (withConstraint x act') := by
  refine (parallel_constraint? x).bind ?_
  rintro (_ | c) _ rfl
  · exact parallel_emit _ _
  · exact h c

section

variable (q q' : Request) {h : q.Answer → q'.Answer} (ha : f.Answers h q.perform q'.perform)

include ha

theorem parallel_attempt : Parallel f (fun a b => b = a.map h) (attempt q) (attempt q') := by
  intro fs gs s t hs
  have he := ha s.runs
  rw [← hs.runs] at he
  exact .returned ⟨congrArg Prod.fst he, congrArg Prod.snd he, hs.nodes, hs.constraints,
    hs.futures, hs.futures'⟩

theorem parallel_insist : Parallel f (fun x y => y = h x) (insist q) (insist q') := by
  refine (parallel_attempt q q' ha).bind ?_
  rintro (m | x) _ rfl
  · exact parallel_throw _ (.misused m)
  · exact parallel_pure rfl

theorem parallel_settle (reaction : Reaction) :
    Parallel f Eq (settle reaction q) (settle reaction q') := by
  refine (parallel_attempt q q' ha).bind ?_
  rintro (m | x) _ rfl
  · cases reaction with
    | answer => exact parallel_emit _ _
    | unwind => exact parallel_throw Eq (.misused m)
  · exact parallel_emit _ _

end

theorem parallel_declare (n : Node Content) (satisfied : Bool) (origin : Origin) :
    Parallel f (fun c d => d = f.constraint c) (insist (.declare n satisfied origin))
      (insist (.declare n satisfied (f.origin origin))) :=
  parallel_insist (.declare n satisfied origin) (.declare n satisfied (f.origin origin))
    (f.answers_declare n satisfied origin)

theorem parallel_apply (n : Node Content) (r : Rule) :
    Parallel f (fun c d => d = f.constraint c) (insist (.apply n r)) (insist (.apply n r)) :=
  parallel_insist (.apply n r) (.apply n r) (f.answers_apply n r)

theorem parallel_otherwise (c : Constraint) (message : String) :
    Parallel f (fun a b => b = a.map f.constraint) (attempt (.otherwise c message))
      (attempt (.otherwise (f.constraint c) message)) :=
  parallel_attempt (.otherwise c message) (.otherwise (f.constraint c) message)
    (f.answers_otherwise c message)

theorem parallel_register (n : Node Content) (c : Constraint) (reaction : Reaction) :
    Parallel f Eq (settle reaction (.register n c))
      (settle reaction (.register n (f.constraint c))) :=
  parallel_settle (.register n c) (.register n (f.constraint c)) (f.answers_register n c) reaction

theorem parallel_report (n : Node Content) (v : Violation) (reaction : Reaction) :
    Parallel f Eq (settle reaction (.report n v)) (settle reaction (.report n v)) :=
  parallel_settle (.report n v) (.report n v) (f.answers_report n v) reaction

end Action

namespace Effect

variable {f : Renaming}

theorem parallel_record (n : Node Content) (target : Option Name) (satisfied : Bool)
    (origin : Origin) (called called' : Option Bool) :
    Parallel f Eq (record n target satisfied origin called)
      (record n target satisfied (f.origin origin) called') := by
  refine (parallel_declare n satisfied origin).bind ?_
  rintro c _ rfl
  exact (parallel_bindConstraint target c).bind fun _ _ _ => parallel_emit _ _

theorem parallel_answer (p : Predicate) (context : Context) (c : Content) :
    Parallel f Eq (p.answer context c) (p.answer context c) := by
  unfold Predicate.answer
  split
  · exact parallel_pure rfl
  · exact parallel_throw Eq (.panicked _)

theorem parallel_answer_record (n : Node Content) (p : Predicate) (context : Context)
    (target : Option Name) (origin : Origin) (called called' : Option Bool) :
    Parallel f Eq (do record n target (← p.answer context n.value) origin called)
      (do record n target (← p.answer context n.value) (f.origin origin) called') := by
  refine (parallel_answer p context n.value).bind ?_
  rintro satisfied _ rfl
  exact parallel_record n target satisfied origin called called'

theorem parallel_constrain {form form' : Form} {site site' : Nat}
    (ho : f.origin (.site form site) = .site form' site')
    (hf : form' = form ∨ form = .always ∧ form' = .suspending) (context : Context) (node : Name)
    (target : Option Name) (predicate : Predicate) (propagates : Bool) :
    Parallel f Eq (constrain context node target form site predicate propagates)
      (constrain context node target form' site' predicate propagates) := by
  refine Parallel.withNode fun n => ?_
  rw [← ho]
  rcases hf with rfl | ⟨rfl, rfl⟩
  · cases form' with
    | always => exact parallel_answer_record n predicate context target _ _ _
    | suspending => exact parallel_answer_record n predicate context target _ _ _
    | ifPresent =>
      dsimp only
      split
      · exact parallel_record n target _ _ _ _
      · exact parallel_answer_record n predicate context target _ _ _
    | fallible =>
      dsimp only
      split
      · exact parallel_record n target _ _ _ _
      · split
        · exact parallel_throw Eq (.failed _)
        · exact parallel_emit _ _
      · exact parallel_throw Eq (.panicked _)
  · exact parallel_answer_record n predicate context target _ _ _

theorem indifferent_derive (source target : Name) (step : Derivation) :
    Indifferent (derive source target step) := by
  refine fun f => Parallel.withNode fun n => ?_
  cases step.follow? n with
  | some m => exact (parallel_bindNode target m).bind fun _ _ _ => parallel_emit _ _
  | none => exact parallel_throw Eq (.panicked _)

theorem indifferent_ask (node : Name) (question : Question) : Indifferent (ask node question) := by
  refine fun f => Parallel.withNode fun n => ?_
  cases question with
  | copies => exact parallel_emit _ _
  | inspection => exact parallel_emit _ _
  | sameAs other => exact Parallel.withNode fun m => parallel_emit _ _
  | distinct others => exact parallel_nodes.bind fun _ _ _ => parallel_emit _ _

theorem indifferent_apply (node : Name) (target : Option Name) (rule : Rule) :
    Indifferent (apply node target rule) := by
  refine fun f => Parallel.withNode fun n => (parallel_apply n rule).bind ?_
  rintro c _ rfl
  exact (parallel_bindConstraint target c).bind fun _ _ _ => parallel_emit _ _

theorem indifferent_otherwise (constraint : Name) (message : String) (reaction : Reaction) :
    Indifferent (otherwise constraint message reaction) := by
  refine fun f => Parallel.withConstraint fun c =>
    (parallel_dropConstraint constraint).bind fun _ _ _ => (parallel_otherwise c message).bind ?_
  rintro (m | d) _ rfl
  · cases reaction with
    | answer => exact parallel_emit _ _
    | unwind => exact parallel_throw Eq (.misused m)
  · exact (parallel_bindConstraint (some constraint) d).bind fun _ _ _ => parallel_emit _ _

theorem indifferent_inspect (constraint : Name) : Indifferent (inspect constraint) :=
  fun _ => Parallel.withConstraint fun _ => parallel_emit _ _

theorem indifferent_resolve (constraint : Name) : Indifferent (resolve constraint) :=
  fun _ => Parallel.withConstraint fun _ =>
    (parallel_dropConstraint constraint).bind fun _ _ _ => parallel_emit _ _

theorem indifferent_sameOrigin (first second : Name) : Indifferent (sameOrigin first second) :=
  fun _ => Parallel.withConstraint fun _ => Parallel.withConstraint fun _ => parallel_emit _ _

theorem indifferent_register (node constraint : Name) (reaction : Reaction) :
    Indifferent (register node constraint reaction) :=
  fun _ => Parallel.withConstraint fun c => Parallel.withNode fun n =>
    parallel_register n c reaction

theorem indifferent_report (node : Name) (path : Option Path) (message : String)
    (reaction : Reaction) : Indifferent (report node path message reaction) :=
  fun _ => Parallel.withNode fun n => parallel_report n _ reaction

end Effect

end Vetting
