import Vetting.Proofs.Relocation
import Vetting.Proofs.Sealing
import Vetting.Proofs.Verdict

/-! Runs are isolated. Whatever goes through the nodes and constraints of a run leaves all others
alone, a constraint is registered in the run that it was made in and in no other, and what a run
reports was asked of its own nodes, for each run has one root and every node was reached from one.
So a run that uses nothing left behind by others comes to the same as if there had been no others.
-/

namespace Vetting

namespace Request

end Request

namespace Session

theorem length_append (steps later : List SessionStep) :
    (state steps).runs.ledgers.length ≤ (state (steps ++ later)).runs.ledgers.length := by
  obtain ⟨more, hm⟩ := deeds_append steps later
  have hs : (state steps).world.runs = (state steps).runs := (faithful_state steps).runs
  have hl : (state (steps ++ later)).world.runs = (state (steps ++ later)).runs :=
    (faithful_state (steps ++ later)).runs
  rw [← hs, ← hl, State.world, State.world, ← hm, World.after_append]
  exact World.length_foldl_le _ more

theorem nextRun_lt (before : List SessionStep) (v : Validator) (subject context : Json)
    (after : List SessionStep) :
    (state before).nextRun < (state (before ++ .run v subject context :: after)).nextRun := by
  have hf : State.Faithful { state before with events := #[] } [] :=
    (faithful_state before).answering #[]
  have hl := (v.ledger_run subject context hf).1
  rw [← state_run] at hl
  rw [List.append_cons]
  exact Nat.lt_of_lt_of_le hl (length_append (before ++ [.run v subject context]) after)

theorem root_eq_of_nextRun {before mid after after' : List SessionStep} {v v' : Validator}
    {subject context subject' context' : Json}
    (hs : .run v subject context :: after = mid ++ .run v' subject' context' :: after')
    (hr : (state before).nextRun = (state (before ++ mid)).nextRun) :
    ((v.openRun subject).run (state before)).1 =
      ((v'.openRun subject').run (state (before ++ mid))).1 := by
  cases mid with
  | nil =>
    cases hs
    rw [List.append_nil]
  | cons step mid =>
    cases hs
    exact absurd hr (Nat.ne_of_lt (nextRun_lt before v subject context mid))

theorem Root.unique {steps : List SessionStep} {root root' : Node Content} (h : Root steps root)
    (h' : Root steps root') (hr : root.run = root'.run) : root = root' := by
  obtain ⟨before, v, subject, context, after, hs, rfl⟩ := h
  obtain ⟨before', v', subject', context', after', hs', rfl⟩ := h'
  change (state before).nextRun = (state before').nextRun at hr
  rw [hs] at hs'
  rcases List.append_eq_append_iff.mp hs' with ⟨mid, rfl, ha⟩ | ⟨mid, rfl, ha⟩
  · exact root_eq_of_nextRun ha hr
  · exact (root_eq_of_nextRun ha hr.symm).symm

end Session

end Vetting
