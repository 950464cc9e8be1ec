import Vetting.Block.Suspension
import Vetting.Proofs.Block.Modes

/-! What a computation that may suspend comes to when it is driven to its end. How often it has
suspended on the way makes no difference; only when it is dropped before, it comes to nothing. -/

namespace Vetting

open Vetting.Action

namespace Resumable

variable {α β : Type}

/-- All that is left to do, done without suspending. What is never woken up is abandoned. -/
def finish : Resumable α → Action α
  | done a => pure a
  | act x next => do (next (← x)).finish
  | suspend next => next.finish
  | hang => throw .abandoned

theorem finish_bind (r : Resumable α) (k : α → Resumable β) :
    (r >>= k).finish = r.finish >>= fun a => (k a).finish := by
  induction r with
  | done a => exact (pure_bind a fun a => (k a).finish).symm
  | act x next ih =>
    change (x >>= fun b => (next b >>= k).finish) = (x >>= fun b => (next b).finish) >>= _
    rw [bind_assoc]
    exact congrArg (x >>= ·) (funext fun b => ih b)
  | suspend next ih => exact ih
  | hang => rfl

theorem finish_perform (x : Action α) : (perform x).finish = x := bind_pure x

theorem finish_sleep (n : Nat) : (sleep n).finish = pure () := by
  induction n with
  | zero => rfl
  | succ n ih => exact ih

theorem finish_wait (latency : State → Nat) : (wait latency).finish = pure () := by
  rw [wait, finish_bind, finish_perform]
  simp only [finish_sleep]
  rfl

theorem exists_drive_eq (r : Resumable α) (s : State) :
    ∃ n, ∀ wakes, n ≤ wakes → (r.drive wakes).run s = r.finish.run s := by
  induction r generalizing s with
  | done a => exact ⟨0, fun _ _ => rfl⟩
  | act x next ih =>
    -- How often the rest has to be woken up may depend on what the action has returned.
    have hn : ∃ n, ∀ wakes, n ≤ wakes → ∀ b t, x.run s = (.ok b, t) →
        ((next b).drive wakes).run t = (next b).finish.run t := by
      cases hx : x.run s with
      | mk outcome t =>
        cases outcome with
        | ok b =>
          obtain ⟨n, hn⟩ := ih b t
          refine ⟨n, fun wakes hw c u hu => ?_⟩
          cases hu
          exact hn wakes hw
        | error halt => exact ⟨0, fun _ _ _ _ hu => nomatch hu⟩
    obtain ⟨n, hn⟩ := hn
    refine ⟨n, fun wakes hw => ?_⟩
    have h := hn wakes hw
    rw [drive, finish, run_bind, run_bind]
    generalize x.run s = r at h
    obtain ⟨_ | b, t⟩ := r
    · rfl
    · exact h b t rfl
  | suspend next ih =>
    obtain ⟨n, hn⟩ := ih s
    refine ⟨n + 1, fun wakes hw => ?_⟩
    obtain _ | wakes := wakes
    · exact absurd hw (Nat.not_succ_le_zero n)
    · exact hn wakes (Nat.le_of_succ_le_succ hw)
  | hang => exact ⟨0, fun _ _ => rfl⟩

theorem drive_eq_or_abandoned (r : Resumable α) (wakes : Nat) (s : State) :
    (r.drive wakes).run s = r.finish.run s ∨ ((r.drive wakes).run s).1 = .error .abandoned := by
  induction r generalizing s wakes with
  | done a => exact .inl rfl
  | act x next ih =>
    rw [drive, finish, run_bind, run_bind]
    generalize x.run s = r
    obtain ⟨_ | b, t⟩ := r
    · exact .inl rfl
    · exact ih b wakes t
  | suspend next ih =>
    cases wakes with
    | zero => exact .inr rfl
    | succ wakes => exact ih wakes s
  | hang => exact .inr rfl

end Resumable

namespace Mode

open Resumable

variable (latency : State → Nat)

theorem finish_constrainAwaiting (context : Context) (node : Name) (target : Option Name)
    (site : Nat) (predicate : Predicate) (propagates : Bool) :
    (constrainAwaiting latency context node target site predicate).finish =
      Effect.constrain context node target .suspending site predicate propagates := by
  rw [constrainAwaiting, finish_bind, finish_perform]
  refine congrArg (node? node >>= ·) (funext fun n => ?_)
  cases n with
  | none => exact finish_perform _
  | some n =>
    dsimp only
    rw [finish_bind, finish_perform]
    refine congrArg (predicate.answer context n.value >>= ·) (funext fun satisfied => ?_)
    rw [finish_bind, finish_wait, pure_bind, finish_perform]

theorem finish_awaitFuture (future : Name) (target : Option Name) :
    (awaitFuture latency future target).finish = Effect.await future target := by
  rw [awaitFuture, finish_bind, finish_perform]
  refine congrArg (takeFuture future >>= ·) (funext fun f => ?_)
  cases f with
  | none => exact finish_perform _
  | some f =>
    dsimp only
    rw [finish_bind, finish_wait, pure_bind, finish_perform]

theorem suspending_agrees_direct :
    (suspending latency).Agrees direct (fun _ => True) fun r x => r.finish = x where
  pure _ := rfl
  bind h hk := by
    rw [finish_bind, h]
    exact congrArg _ (funext hk)
  act _ := finish_perform _
  constrain context node target form site predicate propagates _ := by
    cases form with
    | suspending =>
      exact finish_constrainAwaiting latency context node target site predicate propagates
    | always | ifPresent | fallible => exact finish_perform _
  start _ _ _ _ _ _ := finish_perform _
  await future target := finish_awaitFuture latency future target
  suspend := finish_sleep 1
  hang := rfl

theorem finish_enterIn (library : Library) (depth : Nat) (rules : Name) (context : Json)
    (n : Node Content) :
    (library.enterIn (suspending latency) depth rules context n).finish =
      library.enter depth rules context n := by
  have hl : ∀ l ∈ library.leaves, True := fun _ _ => trivial
  exact Library.agrees_enterIn (suspending_agrees_direct latency) hl depth rules context n

theorem finish_statement (library : Library) (depth : Nat) (context : Context) (s : Statement) :
    (s.carryOut (suspending latency) (library.enterIn (suspending latency) depth) context).finish =
      s.execute (library.enter depth) context := by
  have hn := finish_enterIn latency library depth
  exact Statement.agrees_carryOut (suspending_agrees_direct latency) hn context s fun _ _ => trivial

theorem finish_carryOut (library : Library) (depth : Nat) (r : RuleSet) (context : Json)
    (n : Node Content) :
    (r.carryOut (suspending latency) (library.enterIn (suspending latency) depth) context
        n).finish =
      r.execute (library.enter depth) context n := by
  have hn := finish_enterIn latency library depth
  exact RuleSet.agrees_carryOut (suspending_agrees_direct latency) hn (fun _ _ => trivial) context n

end Mode

end Vetting
