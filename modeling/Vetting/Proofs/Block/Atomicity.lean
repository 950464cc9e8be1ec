import Vetting.Proofs.Block.Faithful
import Vetting.Proofs.Run.Frame

/-! Operations do all or nothing. A statement that declares, gives a message, registers or reports
makes one request at most, so it has changed no run when it is halted or answers with a refusal. -/

namespace Vetting

namespace Event

def refuses : Event → Bool
  | misuse .. => true
  | refused _ => true
  | _ => false

end Event

namespace Statement

def operates : Statement → Bool
  | apply .. => true
  | constrain .. => true
  | start .. => true
  | await .. => true
  | otherwise .. => true
  | register .. => true
  | report .. => true
  | _ => false

end Statement

namespace Action

variable {α β : Type}

def Still (act : Action α) : Prop := ∀ s, (act.run s).2.runs = s.runs

def Silent (act : Action α) : Prop :=
  ∀ s, (act.run s).2.runs = s.runs ∧ (act.run s).2.events = s.events

def Answers (act : Action Unit) : Prop :=
  ∀ s, (act.run s).1 = .ok () ∧
    ∃ e, e.refuses = false ∧ (act.run s).2.events = s.events.push e

/-- The action leaves the runs alone, or else returns, with one answer that is no refusal. -/
def Atomic (act : Action Unit) : Prop :=
  ∀ s, (act.run s).2.runs = s.runs ∨
    (act.run s).1 = .ok () ∧ ∃ e, e.refuses = false ∧ (act.run s).2.events = s.events.push e

theorem Still.atomic {act : Action Unit} (h : Still act) : Atomic act := fun s => .inl (h s)

theorem still_emit (e : Event) : Still (emit e) := fun _ => rfl

theorem still_throw (halt : Halt) : Still (throw halt : Action α) := fun _ => rfl

theorem silent_throw (halt : Halt) : Silent (throw halt : Action α) := fun _ => ⟨rfl, rfl⟩

theorem silent_pure (a : α) : Silent (pure a : Action α) := fun _ => ⟨rfl, rfl⟩

theorem answers_emit {e : Event} (h : e.refuses = false) : Answers (emit e) :=
  fun _ => ⟨rfl, e, h, rfl⟩

theorem Still.bind {act : Action α} {f : α → Action β} (h : Still act) (hf : ∀ a, Still (f a)) :
    Still (act >>= f) := by
  intro s
  have hs := h s
  rw [run_bind]
  cases hr : act.run s with
  | mk outcome t =>
    rw [hr] at hs
    cases outcome with
    | ok a => exact (hf a t).trans hs
    | error halt => exact hs

theorem Silent.bind {act : Action α} {f : α → Action Unit} (h : Silent act)
    (hf : ∀ a, Atomic (f a)) : Atomic (act >>= f) := by
  intro s
  obtain ⟨hr, he⟩ := h s
  rw [run_bind]
  cases hs : act.run s with
  | mk outcome t =>
    rw [hs] at hr he
    cases outcome with
    | error halt => exact .inl hr
    | ok a =>
      have ha := hf a t
      rw [show t.runs = s.runs from hr, show t.events = s.events from he] at ha
      exact ha

theorem answers_bindConstraint (x : Option Name) (c : Constraint) {act : Action Unit}
    (h : Answers act) : Answers (bindConstraint x c >>= fun _ => act) := by
  intro s
  cases x with
  | none => exact h s
  | some x => exact h _

theorem atomic_attempt {q : Request} {f : Except Misuse q.Answer → Action Unit}
    (ho : ∀ a, Answers (f (.ok a))) (he : ∀ m, Still (f (.error m))) :
    Atomic (attempt q >>= f) := by
  intro s
  rw [run_bind, run_attempt]
  cases hq : (q.perform.run s.runs).1 with
  | ok a => exact .inr (ho a _)
  | error m => exact .inl ((he m _).trans (Request.runs_of_refused hq))

theorem atomic_insist {q : Request} {f : q.Answer → Action Unit} (h : ∀ a, Answers (f a)) :
    Atomic (insist q >>= f) := by
  unfold insist
  rw [bind_assoc]
  refine atomic_attempt (fun a => ?_) fun m => ?_
  · simpa using h a
  · simpa using still_throw (.misused m)

theorem atomic_settle (reaction : Reaction) (q : Request) : Atomic (settle reaction q) := by
  refine atomic_attempt (fun a => answers_emit rfl) fun m => ?_
  cases reaction with
  | answer => exact still_emit _
  | unwind => exact still_throw _

theorem atomic_withNode {x : Name} {act : Node Content → Action Unit} (h : ∀ n, Atomic (act n)) :
    Atomic (withNode x act) := by
  intro s
  rw [run_withNode]
  cases s.scope.nodes.get? x with
  | some n => exact h n s
  | none => exact (still_emit _).atomic s

theorem atomic_withConstraint {x : Name} {act : Constraint → Action Unit}
    (h : ∀ c, Atomic (act c)) : Atomic (withConstraint x act) := by
  intro s
  rw [run_withConstraint]
  cases s.scope.constraints.get? x with
  | some c => exact h c s
  | none => exact (still_emit _).atomic s

end Action

namespace Effect

open Vetting.Action

theorem silent_answer (p : Predicate) (context : Context) (c : Content) :
    Silent (p.answer context c) := by
  unfold Predicate.answer
  split
  · exact silent_pure _
  · exact silent_throw _

theorem atomic_record (n : Node Content) (target : Option Name) (satisfied : Bool)
    (origin : Origin) (called : Option Bool) : Atomic (record n target satisfied origin called) :=
  atomic_insist fun c => answers_bindConstraint target c (answers_emit rfl)

theorem atomic_apply (node : Name) (target : Option Name) (rule : Rule) :
    Atomic (apply node target rule) :=
  atomic_withNode fun _ => atomic_insist fun c => answers_bindConstraint target c (answers_emit rfl)

theorem atomic_constrain (context : Context) (node : Name) (target : Option Name) (form : Form)
    (site : Nat) (predicate : Predicate) (propagates : Bool) :
    Atomic (constrain context node target form site predicate propagates) := by
  refine atomic_withNode fun n => ?_
  have ha := silent_answer predicate context n.value
  cases form with
  | always => exact ha.bind fun b => atomic_record _ _ _ _ _
  | suspending => exact ha.bind fun b => atomic_record _ _ _ _ _
  | ifPresent =>
    dsimp only
    split
    · exact atomic_record _ _ _ _ _
    · exact ha.bind fun b => atomic_record _ _ _ _ _
  | fallible =>
    dsimp only
    split
    · exact atomic_record _ _ _ _ _
    · split
      · exact (still_throw _).atomic
      · exact (still_emit _).atomic
    · exact (still_throw _).atomic

theorem atomic_start (context : Context) (node target : Name) (site : Nat)
    (predicate : Predicate) : Atomic (start context node target site predicate) := by
  refine atomic_withNode fun n => (silent_answer predicate context n.value).bind fun b => ?_
  have hb : ∀ f, Still (bindFuture target f) := fun _ _ => rfl
  exact ((hb _).bind fun _ => still_emit _).atomic

theorem atomic_await (future : Name) (target : Option Name) : Atomic (await future target) := by
  have ht : Silent (takeFuture future) := fun _ => ⟨rfl, rfl⟩
  refine ht.bind fun f => ?_
  cases f with
  | some f => exact atomic_record _ _ _ _ _
  | none => exact (still_emit _).atomic

theorem atomic_otherwise (constraint : Name) (message : String) (reaction : Reaction) :
    Atomic (otherwise constraint message reaction) := by
  have hd : Silent (dropConstraint constraint) := fun _ => ⟨rfl, rfl⟩
  refine atomic_withConstraint fun c => hd.bind fun _ => atomic_attempt (fun d => ?_) fun m => ?_
  · exact answers_bindConstraint (some constraint) d (answers_emit rfl)
  · cases reaction with
    | answer => exact still_emit _
    | unwind => exact still_throw _

end Effect

theorem Statement.atomic_execute {st : Statement} (h : st.operates = true) (nested : Nested)
    (context : Context) : Action.Atomic (st.execute nested context) := by
  cases st with
  | apply node target rule => exact Effect.atomic_apply node target rule
  | constrain node target form site predicate propagates =>
    exact Effect.atomic_constrain context node target form site predicate propagates
  | start node target site predicate =>
    exact Effect.atomic_start context node target site predicate
  | await future target => exact Effect.atomic_await future target
  | otherwise constraint message reaction =>
    exact Effect.atomic_otherwise constraint message reaction
  | register node constraint reaction =>
    exact Action.atomic_withConstraint fun c => Action.atomic_withNode fun n =>
      Action.atomic_settle reaction (.register n c)
  | report node path message reaction =>
    exact Action.atomic_withNode fun n => Action.atomic_settle reaction (.report n _)
  | _ => cases h

theorem Statement.runs_of_refuses {st : Statement} (h : st.operates = true) (nested : Nested)
    (context : Context) {s : State}
    (hr : (∃ halt, ((st.execute nested context).run s).1 = .error halt) ∨
      ∃ e, e.refuses = true ∧ ((st.execute nested context).run s).2.events = s.events.push e) :
    ((st.execute nested context).run s).2.runs = s.runs := by
  refine (st.atomic_execute h nested context s).resolve_right ?_
  rintro ⟨hok, e, he, hp⟩
  rcases hr with ⟨halt, hh⟩ | ⟨e', he', hp'⟩
  · rw [hok] at hh
    cases hh
  · have hee : e = e' := (Array.push_eq_push.mp (hp.symm.trans hp')).1
    rw [← hee, he] at he'
    cases he'

end Vetting
