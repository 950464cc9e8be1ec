import Mathlib.Data.List.Induction
import Vetting.Proofs.Run.World

/-! What a request leaves alone. It changes the collection of one open run at most, its own, and
when it is refused it changes nothing; so a run that has been completed stays as it is. Constraints
are made by declarations alone, and messages do not take them out of their runs. -/

namespace Vetting

namespace Request

def target : Request → RunId
  | declare n _ _ => n.run
  | apply n _ => n.run
  | otherwise c _ => c.run
  | register n _ => n.run
  | report n _ => n.run

def runs : Request → List RunId
  | register n c => [n.run, c.run]
  | q => [q.target]

/-- What can come of a request: it is refused, or it is granted and there is nothing to do, or it
changes the collection of its run, which is open. -/
inductive Settles (q : Request) (rs : Runs) : Except Misuse q.Answer × Runs → Prop where
  | refused (m : Misuse) : Settles q rs (.error m, rs)
  | idle (a : q.Answer) : Settles q rs (.ok a, rs)
  | changed (a : q.Answer) (es : Entries) : (rs.ledger q.target).completed = false →
    Settles q rs (.ok a, rs.setEntries q.target es)

theorem settles_perform (q : Request) (rs : Runs) : q.Settles rs (q.perform.run rs) := by
  cases q with
  | declare n satisfied origin =>
    simp only [perform, Node.declare, Constraint.run_declare]
    split
    · exact .refused _
    · rename_i ho
      exact .changed _ _ (eq_false_of_ne_true ho)
  | apply n rule =>
    simp only [perform, Node.run_apply]
    split
    · exact .refused _
    · rename_i ho
      exact .changed _ _ (eq_false_of_ne_true ho)
  | otherwise c message =>
    simp only [perform, Constraint.run_otherwise]
    split
    · exact .idle _
    · split
      · exact .refused _
      · split
        · exact .refused _
        · rename_i ho
          exact .changed _ _ (eq_false_of_ne_true ho)
  | register n c =>
    simp only [perform, Node.run_register]
    split
    · exact .refused _
    · rename_i ho
      split
      · exact .refused _
      · split
        · exact .idle _
        · exact .changed _ _ (eq_false_of_ne_true ho)
  | report n v =>
    simp only [perform, Node.run_report]
    split
    · exact .refused _
    · rename_i ho
      exact .changed _ _ (eq_false_of_ne_true ho)

variable {q : Request} {rs : Runs}

theorem Settles.runs_of_refused {r : Except Misuse q.Answer × Runs} (h : q.Settles rs r)
    {m : Misuse} (hr : r.1 = .error m) : r.2 = rs := by
  cases h with
  | refused => rfl
  | idle => cases hr
  | changed => cases hr

theorem runs_of_refused {m : Misuse} (h : (q.perform.run rs).1 = .error m) :
    (q.perform.run rs).2 = rs := (q.settles_perform rs).runs_of_refused h

theorem Settles.ledger_eq {r : Except Misuse q.Answer × Runs} (h : q.Settles rs r) {run : RunId}
    (hr : run ≠ q.target ∨ (rs.ledger run).completed = true) : r.2.ledger run = rs.ledger run := by
  cases h with
  | refused => rfl
  | idle => rfl
  | changed a es ho =>
    refine Runs.ledger_setLedger_ne _ _ fun he => ?_
    rcases hr with hr | hr
    · exact hr he
    · rw [he, ho] at hr
      cases hr

theorem ledger_perform {run : RunId}
    (h : run ≠ q.target ∨ (rs.ledger run).completed = true) :
    (q.perform.run rs).2.ledger run = rs.ledger run := (q.settles_perform rs).ledger_eq h

end Request

namespace World

theorem runs_ask_eq (w : World) (q : Request) :
    (w.ask q).runs = w.runs ∨ (w.ask q).runs = (q.perform.run w.runs).2 := by
  unfold ask
  split
  · exact .inr rfl
  · exact .inl rfl

theorem ledger_ask {w : World} {q : Request} {run : RunId}
    (h : (w.runs.ledger run).completed = true) :
    (w.ask q).runs.ledger run = w.runs.ledger run := by
  rcases w.runs_ask_eq q with hq | hq
  · rw [hq]
  · rw [hq, Request.ledger_perform (.inr h)]

theorem ledger_asks {w : World} {run : RunId} (h : (w.runs.ledger run).completed = true)
    (qs : List Request) : ((qs.map Deed.ask).foldl step w).runs.ledger run = w.runs.ledger run := by
  induction qs generalizing w with
  | nil => rfl
  | cons q qs ih =>
    have hq : (w.ask q).runs.ledger run = w.runs.ledger run := ledger_ask h
    exact (ih (hq ▸ h)).trans hq

theorem length_step_le (w : World) (d : Deed) :
    w.runs.ledgers.length ≤ (w.step d).runs.ledgers.length := by
  cases d with
  | start => simp [step, Runs.start]
  | ask q =>
    obtain ⟨run, es, h⟩ := w.runs_ask q
    rw [step, h]
    exact Nat.le_of_eq (Runs.length_setEntries ..).symm
  | complete run default => simp [step, Runs.complete, Runs.setLedger]

theorem length_foldl_le (w : World) (history : List Deed) :
    w.runs.ledgers.length ≤ (history.foldl step w).runs.ledgers.length := by
  induction history generalizing w with
  | nil => exact Nat.le_refl _
  | cons d history ih => exact Nat.le_trans (w.length_step_le d) (ih (w.step d))

theorem closed_step {w : World} {run : RunId} (hl : run < w.runs.ledgers.length)
    (hc : w.runs.ledger run = .closed) (d : Deed) : (w.step d).runs.ledger run = .closed := by
  cases d with
  | start => rw [step, Runs.ledger_start_ne _ (Nat.ne_of_lt hl), hc]
  | ask q => rw [step, ledger_ask (by rw [hc]; rfl), hc]
  | complete other default =>
    by_cases ho : run = other
    · rw [step, ho]
      exact Runs.ledger_setLedger_self _ _ _ (ho ▸ hl)
    · rw [step, Runs.ledger_complete_ne _ _ ho, hc]

theorem closed_foldl {w : World} {run : RunId} (hl : run < w.runs.ledgers.length)
    (hc : w.runs.ledger run = .closed) (history : List Deed) :
    (history.foldl step w).runs.ledger run = .closed := by
  induction history generalizing w with
  | nil => exact hc
  | cons d history ih => exact ih (Nat.lt_of_lt_of_le hl (w.length_step_le d)) (closed_step hl hc d)

end World

end Vetting
