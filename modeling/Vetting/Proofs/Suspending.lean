import Vetting.Proofs.Block.Suspension
import Vetting.Proofs.Postponement
import Vetting.Proofs.Replacement
import Vetting.Suspending

/-! Suspending runs and direct ones. Whatever a run awaits, and however long, it comes to the same
outcome as a run that never suspends; whether constraints are declared asynchronously makes no
difference to that, and neither does when they are started. -/

namespace Vetting

namespace Validator

variable (v : Validator) (latency : State → Nat) (subject context : Json)

def suspended (root : Node Content) : Resumable Unit :=
  let mode := Mode.suspending latency
  v.rules.carryOut mode (v.library.enterIn mode Library.depthLimit) context root

theorem finish_suspended (root : Node Content) :
    (v.suspended latency context root).finish =
      v.rules.execute v.library.nested context root :=
  Mode.finish_carryOut latency v.library Library.depthLimit v.rules context root

def playSuspending (wakes : Nat) (s : State) : Except Halt Unit × State :=
  let opened := (v.openRun subject).run s
  ((v.suspended latency context opened.1).drive wakes).run opened.2

theorem run_runSuspending (wakes : Nat) (s : State) :
    (v.runSuspending latency wakes subject context).run s =
      (v.endRun subject s.nextRun (v.playSuspending latency subject context wakes s).1).run
        (v.playSuspending latency subject context wakes s).2 := rfl

theorem run_of_play_eq {wakes : Nat} {s : State}
    (h : v.playSuspending latency subject context wakes s = v.play subject context s) :
    (v.runSuspending latency wakes subject context).run s = (v.run subject context).run s := by
  rw [run_runSuspending, h]
  exact (v.run_run subject context).symm

theorem exists_run_eq (s : State) :
    ∃ n, ∀ wakes, n ≤ wakes →
      (v.runSuspending latency wakes subject context).run s = (v.run subject context).run s := by
  let opened := (v.openRun subject).run s
  obtain ⟨n, hn⟩ := (v.suspended latency context opened.1).exists_drive_eq opened.2
  rw [finish_suspended] at hn
  exact ⟨n, fun wakes hw => v.run_of_play_eq latency subject context (hn wakes hw)⟩

theorem run_eq_or_abandoned (wakes : Nat) (s : State) :
    (v.runSuspending latency wakes subject context).run s = (v.run subject context).run s ∨
      ((v.runSuspending latency wakes subject context).run s).1 = .abandoned := by
  let opened := (v.openRun subject).run s
  have hd := (v.suspended latency context opened.1).drive_eq_or_abandoned wakes opened.2
  rw [finish_suspended] at hd
  rcases hd with h | h
  · exact .inl (v.run_of_play_eq latency subject context h)
  · change (v.playSuspending latency subject context wakes s).1 = _ at h
    refine .inr ?_
    rw [run_runSuspending, h]
    rfl

theorem exists_validate_eq :
    ∃ n, ∀ wakes, n ≤ wakes →
      v.validateSuspending latency wakes subject context = v.validate subject context := by
  obtain ⟨n, hn⟩ := v.exists_run_eq latency subject context .initial
  exact ⟨n, fun wakes hw => congrArg Prod.fst (hn wakes hw)⟩

/-- A run that may suspend does what the direct run does, unless it is dropped before its end. It
comes to the same outcome when constraints are declared asynchronously in place of others, and, if
all predicates that it starts answer, to the one that it would have come to had they been declared
where they are awaited. -/
theorem suspending_agrees :
    (∀ s, (∃ n, ∀ wakes, n ≤ wakes →
        (v.runSuspending latency wakes subject context).run s = (v.run subject context).run s) ∧
      ∀ wakes,
        (v.runSuspending latency wakes subject context).run s = (v.run subject context).run s ∨
          ((v.runSuspending latency wakes subject context).run s).1 = .abandoned) ∧
    (∀ r : Replacement, r.Distinct v.places → ∃ n, ∀ wakes, n ≤ wakes →
      (v.replace r).validateSuspending latency wakes subject context =
        v.validate subject context) ∧
    ((∀ p ∈ v.started, p.Answers) → ∃ n, ∀ wakes, n ≤ wakes →
      v.validateSuspending latency wakes subject context =
        v.validatePostponing subject context) := by
  refine ⟨fun s => ⟨?_, fun wakes => ?_⟩, fun r hr => ?_, fun h => ?_⟩
  · exact v.exists_run_eq latency subject context s
  · exact v.run_eq_or_abandoned latency subject context wakes s
  · rw [← v.validate_replace hr]
    exact (v.replace r).exists_validate_eq latency subject context
  · rw [v.validatePostponing_eq h]
    exact v.exists_validate_eq latency subject context

def registering : Validator where
  rules := ⟨"handle", true, [.start "handle" "free" 0 .free,
    .constrain "handle" none .always 1 (.equalTo (.text "al")) false, .suspend,
    .start "handle" "unused" 2 (.constant false), .await "free" (some "mine"),
    .otherwise "mine" "This handle is already taken" .unwind]⟩
  configuration := .standard
  library := []

theorem registering_reports :
    let latency (s : State) := s.deeds.size
    let handle := Json.text "steve"
    let taken := Json.array [handle]
    let report : Report :=
      ⟨[⟨.root, "The value is invalid."⟩, ⟨.root, "This handle is already taken"⟩], by simp⟩
    let r : Replacement := ⟨fun _ => true, fun form n => if form = .always then n + 10 else n⟩
    (∃ n, ∀ wakes, n ≤ wakes →
      (registering.replace r).validateSuspending latency wakes handle taken = .failure report) ∧
    registering.validatePostponing handle taken = .failure report := by
  intro latency handle taken report r
  have hv : registering.validate handle taken = .failure report := rfl
  have ha : ∀ p ∈ registering.started, p.Answers :=
    List.forall_mem_cons.mpr ⟨fun _ _ => ⟨_, rfl⟩,
      List.forall_mem_cons.mpr ⟨fun _ _ => ⟨_, rfl⟩, fun _ hp => absurd hp List.not_mem_nil⟩⟩
  obtain ⟨hs, hr, hp⟩ := registering.suspending_agrees latency handle taken
  refine ⟨hv ▸ hr r (by decide), ?_⟩
  obtain ⟨n, hn⟩ := (hs .initial).1
  obtain ⟨k, hk⟩ := hp ha
  rw [← hv, ← hk (max n k) (Nat.le_max_right n k)]
  exact congrArg Prod.fst (hn (max n k) (Nat.le_max_left n k))

end Validator

end Vetting
