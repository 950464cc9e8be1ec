import Vetting.Proofs.Run.Operations

/-! The runs of a session and the constraints that exist, as requests move them. A request about a
constraint counts only while that constraint exists. What a run has come to is its own collection
and its own constraints, and on these its requests act as if there were no other run. -/

namespace Vetting

namespace Rule

def passes (r : Rule) (c : Content) : Bool := ((r.judgeContent c).map (·.satisfied)).getD true

def complaint (r : Rule) (c : Content) : String := ((r.judgeContent c).map (·.message)).getD ""

end Rule

namespace Constraint

def declines (c : Constraint) (message : String) : Bool := !c.keeps message && c.refuses message

theorem run_otherwise_of_declines {c : Constraint} {message : String}
    (h : c.declines message = true) (rs : Runs) :
    (c.otherwise message).run rs =
      (.error (.conflictingMessage c.path (c.message.getD "") message), rs) := by
  have hd : c.keeps message = false ∧ c.refuses message = true := by simpa [declines] using h
  rw [run_otherwise, if_neg (by simp [hd.1]), if_pos hd.2]

theorem run_otherwise_of_not_declines {c : Constraint} {message : String}
    (h : c.declines message = false) {rs : Runs} (ho : (rs.ledger c.run).completed = false) :
    (c.otherwise message).run rs =
      (.ok (c.messaged message (rs.ledger c.run).entries).1,
        rs.setEntries c.run (c.messaged message (rs.ledger c.run).entries).2) := by
  cases hk : c.keeps message with
  | true => rw [run_otherwise, if_pos hk, messaged_of_keeps hk, Runs.setEntries_self]
  | false => exact run_otherwise_of_open ho (by simpa [declines, hk] using h)

end Constraint

theorem Node.run_apply (n : Node Content) (r : Rule) (rs : Runs) :
    (n.apply r).run rs =
      if (rs.ledger n.run).completed then (.error (.runCompleted n.path), rs)
      else
        let made := Constraint.judged (r.passes n.value) n.path n.run r.name (r.complaint n.value)
          (rs.ledger n.run).entries
        (.ok made.1, rs.setEntries n.run made.2) := by
  simp only [Node.apply, Node.run_judge, Rule.passes, Rule.complaint]

namespace Request

theorem exists_setEntries (q : Request) (rs : Runs) :
    ∃ run es, (q.perform.run rs).2 = rs.setEntries run es := by
  have same : ∃ run es, rs = rs.setEntries run es :=
    ⟨0, (rs.ledger 0).entries, (rs.setEntries_self 0).symm⟩
  cases q with
  | declare n satisfied origin =>
    simp only [perform, Node.declare, Constraint.run_declare]
    split
    · exact same
    · exact ⟨_, _, rfl⟩
  | apply n rule =>
    simp only [perform, Node.run_apply]
    split
    · exact same
    · exact ⟨_, _, rfl⟩
  | otherwise c message =>
    simp only [perform, Constraint.run_otherwise]
    repeat' split
    all_goals first | exact same | exact ⟨_, _, rfl⟩
  | register n c =>
    simp only [perform, Node.run_register]
    repeat' split
    all_goals first | exact same | exact ⟨_, _, rfl⟩
  | report n v =>
    simp only [perform, Node.run_report]
    split
    · exact same
    · exact ⟨_, _, rfl⟩

section

variable {n : Node Content} {rs : Runs}

theorem perform_declare_of_open (ho : (rs.ledger n.run).completed = false) (satisfied : Bool)
    (origin : Origin) :
    (declare n satisfied origin).perform.run rs =
      (.ok (Constraint.declared satisfied n.path n.run origin (rs.ledger n.run).entries).1,
        rs.setEntries n.run
          (Constraint.declared satisfied n.path n.run origin (rs.ledger n.run).entries).2) := by
  rw [perform, Node.declare, Constraint.run_declare, if_neg (by simp [ho])]

theorem perform_apply_of_open (ho : (rs.ledger n.run).completed = false) (r : Rule) :
    (apply n r).perform.run rs =
      (.ok (Constraint.judged (r.passes n.value) n.path n.run r.name (r.complaint n.value)
          (rs.ledger n.run).entries).1,
        rs.setEntries n.run
          (Constraint.judged (r.passes n.value) n.path n.run r.name (r.complaint n.value)
            (rs.ledger n.run).entries).2) := by
  rw [perform, Node.run_apply, if_neg (by simp [ho])]

theorem perform_register_of_open (ho : (rs.ledger n.run).completed = false) {c : Constraint}
    (hc : c.run = n.run) :
    (register n c).perform.run rs =
      (.ok (), rs.setEntries n.run (if c.satisfied then (rs.ledger n.run).entries
        else ((rs.ledger n.run).entries.insert c.entry).2)) := by
  rw [perform, Node.run_register, if_neg (by simp [ho]), if_neg (by simp [hc])]
  cases c.satisfied <;> simp

theorem perform_report_of_open (ho : (rs.ledger n.run).completed = false) (v : Violation) :
    (report n v).perform.run rs =
      (.ok (), rs.setEntries n.run ((rs.ledger n.run).entries.insert (.ofViolation v)).2) := by
  rw [perform, Node.run_report, if_neg (by simp [ho])]

end

def addressee? : Request → Option Constraint
  | otherwise c _ => some c
  | register _ c => some c
  | _ => none

/-- The constraints that exist after a request. One that is offered a message is used up, and comes
back with the answer if the message is taken. -/
def leave : (q : Request) → Except Misuse q.Answer → List Constraint → List Constraint
  | declare .., .ok c, cs => c :: cs
  | apply .., .ok c, cs => c :: cs
  | otherwise c _, .ok d, cs => d :: cs.erase c
  | otherwise c _, .error _, cs => cs.erase c
  | _, _, cs => cs

end Request

structure World where
  runs : Runs
  constraints : List Constraint

namespace World

def initial : World := ⟨.none, []⟩

def ask (w : World) (q : Request) : World :=
  if ∀ c ∈ q.addressee?, c ∈ w.constraints then
    ⟨(q.perform.run w.runs).2, q.leave (q.perform.run w.runs).1 w.constraints⟩
  else w

def step (w : World) : Deed → World
  | .start => { w with runs := w.runs.start.2 }
  | .ask q => w.ask q
  | .complete run default => { w with runs := (w.runs.complete run default).2 }

def after (history : List Deed) : World := history.foldl step initial

@[simp]
theorem after_nil : after [] = initial := rfl

theorem after_append (history more : List Deed) :
    after (history ++ more) = more.foldl step (after history) := List.foldl_append

theorem after_concat (history : List Deed) (d : Deed) :
    after (history ++ [d]) = (after history).step d := by simp [after_append]

end World

structure Progress where
  entries : Entries
  constraints : List Constraint

namespace Progress

def start : Progress := ⟨[], []⟩

def add (p : Progress) (made : Constraint × Entries) : Progress := ⟨made.2, made.1 :: p.constraints⟩

def drop (p : Progress) (c : Constraint) : Progress :=
  { p with constraints := p.constraints.erase c }

def insert (p : Progress) (e : Entry) : Progress := { p with entries := (p.entries.insert e).2 }

def ask (run : RunId) (p : Progress) : Request → Progress
  | .declare n satisfied origin =>
    if n.run = run then
      p.add (Constraint.declared satisfied n.path run origin p.entries)
    else p
  | .apply n rule =>
    if n.run = run then
      p.add (Constraint.judged (rule.passes n.value) n.path run rule.name (rule.complaint n.value)
        p.entries)
    else p
  | .otherwise c message =>
    if c ∈ p.constraints then
      if c.declines message then p.drop c else (p.drop c).add (c.messaged message p.entries)
    else p
  | .register n c =>
    if n.run = run ∧ c ∈ p.constraints ∧ c.satisfied = false then p.insert c.entry else p
  | .report n v => if n.run = run then p.insert (.ofViolation v) else p

structure Gives (p : Progress) (q : Request) (c : Constraint) (message : String) : Prop where
  asked : q = .otherwise c message
  exist : c ∈ p.constraints
  keeps : c.keeps message = false
  refuses : c.refuses message = false

theorem Gives.satisfied {p : Progress} {q : Request} {c : Constraint} {message : String}
    (h : p.Gives q c message) : c.satisfied = false :=
  (Bool.or_eq_false_iff.mp h.keeps).1

theorem Gives.ask_eq {p : Progress} {q : Request} {c : Constraint} {message : String}
    (h : p.Gives q c message) (run : RunId) :
    p.ask run q = (p.drop c).add (c.messaged message p.entries) := by
  rw [h.asked, ask, if_pos h.exist, if_neg (by simp [Constraint.declines, h.refuses])]

theorem ask_otherwise_of_not_gives {p : Progress} {c : Constraint} {message : String}
    (h : ¬p.Gives (.otherwise c message) c message) (run : RunId) :
    (p.ask run (.otherwise c message)).entries = p.entries ∧
      (p.ask run (.otherwise c message)).constraints ⊆ p.constraints := by
  rw [ask]
  split
  · rename_i hc
    split
    · exact ⟨rfl, List.erase_subset⟩
    · rename_i hd
      cases hk : c.keeps message with
      | true =>
        rw [Constraint.messaged_of_keeps hk]
        exact ⟨rfl, (List.perm_cons_erase hc).symm.subset⟩
      | false => exact absurd ⟨rfl, hc, hk, by simpa [Constraint.declines, hk] using hd⟩ h
  · exact ⟨rfl, List.Subset.refl _⟩

end Progress

namespace World

def progress (w : World) (run : RunId) : Progress :=
  ⟨(w.runs.ledger run).entries, w.constraints.filter (·.run = run)⟩

theorem runs_ask (w : World) (q : Request) :
    ∃ run es, (w.ask q).runs = w.runs.setEntries run es := by
  unfold ask
  split
  · exact q.exists_setEntries w.runs
  · exact ⟨0, _, (w.runs.setEntries_self 0).symm⟩

theorem completed_ask (w : World) (q : Request) (run : RunId) :
    ((w.ask q).runs.ledger run).completed = (w.runs.ledger run).completed := by
  obtain ⟨other, es, h⟩ := w.runs_ask q
  rw [h, Runs.completed_setEntries]

theorem ask_of_mem {w : World} {q : Request} (h : ∀ c ∈ q.addressee?, c ∈ w.constraints) :
    w.ask q = ⟨(q.perform.run w.runs).2, q.leave (q.perform.run w.runs).1 w.constraints⟩ := if_pos h

theorem ask_declare (w : World) (n : Node Content) (satisfied : Bool) (origin : Origin) :
    w.ask (.declare n satisfied origin) =
      if (w.runs.ledger n.run).completed then w
      else
        let made := Constraint.declared satisfied n.path n.run origin (w.runs.ledger n.run).entries
        ⟨w.runs.setEntries n.run made.2, made.1 :: w.constraints⟩ := by
  rw [ask_of_mem (by simp [Request.addressee?])]
  cases ho : (w.runs.ledger n.run).completed <;>
    simp [Request.perform, Node.declare, Constraint.run_declare, ho, Request.leave]

theorem ask_apply (w : World) (n : Node Content) (r : Rule) :
    w.ask (.apply n r) =
      if (w.runs.ledger n.run).completed then w
      else
        let made := Constraint.judged (r.passes n.value) n.path n.run r.name (r.complaint n.value)
          (w.runs.ledger n.run).entries
        ⟨w.runs.setEntries n.run made.2, made.1 :: w.constraints⟩ := by
  rw [ask_of_mem (by simp [Request.addressee?])]
  cases ho : (w.runs.ledger n.run).completed <;>
    simp [Request.perform, Node.run_apply, ho, Request.leave]

theorem ask_otherwise {w : World} {c : Constraint} (message : String) (hc : c ∈ w.constraints) :
    w.ask (.otherwise c message) =
      if c.declines message ∨ c.keeps message = false ∧ (w.runs.ledger c.run).completed then
        { w with constraints := w.constraints.erase c }
      else
        let made := c.messaged message (w.runs.ledger c.run).entries
        ⟨w.runs.setEntries c.run made.2, made.1 :: w.constraints.erase c⟩ := by
  rw [ask_of_mem (by simpa [Request.addressee?] using hc)]
  cases hk : c.keeps message <;> cases hr : c.refuses message <;>
    cases ho : (w.runs.ledger c.run).completed <;>
    simp [Request.perform, Constraint.run_otherwise, ho, hk, hr, Request.leave,
      Constraint.declines, Constraint.messaged]

theorem ask_register {w : World} (n : Node Content) {c : Constraint} (hc : c ∈ w.constraints) :
    w.ask (.register n c) =
      if (w.runs.ledger n.run).completed ∨ c.run ≠ n.run ∨ c.satisfied then w
      else
        { w with
          runs := w.runs.setEntries n.run
            ((w.runs.ledger n.run).entries.insert c.entry).2 } := by
  rw [ask_of_mem (by simpa [Request.addressee?] using hc)]
  cases ho : (w.runs.ledger n.run).completed <;> by_cases hr : c.run = n.run <;>
    cases hs : c.satisfied <;> simp [Request.perform, Node.run_register, ho, hr, hs, Request.leave]

theorem ask_report (w : World) (n : Node Content) (v : Violation) :
    w.ask (.report n v) =
      if (w.runs.ledger n.run).completed then w
      else
        { w with
          runs := w.runs.setEntries n.run
            ((w.runs.ledger n.run).entries.insert (.ofViolation v)).2 } := by
  rw [ask_of_mem (by simp [Request.addressee?])]
  cases ho : (w.runs.ledger n.run).completed <;>
    simp [Request.perform, Node.run_report, ho, Request.leave]

theorem ask_of_not_mem {w : World} {q : Request} {c : Constraint} (hq : q.addressee? = some c)
    (hc : c ∉ w.constraints) : w.ask q = w := by
  simp [ask, hq, hc]

theorem mem_constraints_ask (w : World) {q : Request} {c : Constraint}
    (hc : c ∈ (w.ask q).constraints) :
    c ∈ w.constraints ∨ (w.runs.ledger c.run).completed = false := by
  cases q with
  | declare n satisfied origin =>
    rw [ask_declare] at hc
    split at hc
    · exact .inl hc
    · rename_i ho
      rcases List.mem_cons.mp hc with rfl | hc
      · exact .inr (by simpa using ho)
      · exact .inl hc
  | apply n r =>
    rw [ask_apply] at hc
    split at hc
    · exact .inl hc
    · rename_i ho
      rcases List.mem_cons.mp hc with rfl | hc
      · exact .inr (by simpa using ho)
      · exact .inl hc
  | otherwise d message =>
    by_cases hd : d ∈ w.constraints
    · rw [ask_otherwise message hd] at hc
      split at hc
      · exact .inl (List.mem_of_mem_erase hc)
      · rename_i ho
        rcases List.mem_cons.mp hc with rfl | hc
        · cases hk : d.keeps message with
          | true => exact .inl (by rwa [Constraint.messaged_of_keeps hk])
          | false => exact .inr (by simp_all)
        · exact .inl (List.mem_of_mem_erase hc)
    · rw [ask_of_not_mem rfl hd] at hc
      exact .inl hc
  | register n d =>
    by_cases hd : d ∈ w.constraints
    · rw [ask_register n hd] at hc
      split at hc <;> exact .inl hc
    · rw [ask_of_not_mem rfl hd] at hc
      exact .inl hc
  | report n v =>
    rw [ask_report] at hc
    split at hc <;> exact .inl hc

theorem mem_constraints_progress {w : World} {run : RunId} {c : Constraint} :
    c ∈ (w.progress run).constraints ↔ c ∈ w.constraints ∧ c.run = run := by
  simp [progress]

/-- Within an open run, its progress is all that its requests depend on and all that they change. -/
theorem progress_ask {w : World} {run : RunId} (q : Request)
    (ho : (w.runs.ledger run).completed = false) :
    (w.ask q).progress run = (w.progress run).ask run q := by
  cases q with
  | declare n satisfied origin =>
    rw [ask_declare, Progress.ask]
    by_cases hr : n.run = run
    · subst hr
      simp [ho, progress, Progress.add, Runs.entries_setEntries_self]
    · rw [if_neg hr]
      split
      · rfl
      · simp [progress, Runs.entries_setEntries_ne _ _ (Ne.symm hr), hr]
  | apply n r =>
    rw [ask_apply, Progress.ask]
    by_cases hr : n.run = run
    · subst hr
      simp [ho, progress, Progress.add, Runs.entries_setEntries_self]
    · rw [if_neg hr]
      split
      · rfl
      · simp [progress, Runs.entries_setEntries_ne _ _ (Ne.symm hr), hr]
  | otherwise c message =>
    rw [Progress.ask]
    by_cases hc : c ∈ w.constraints
    · rw [ask_otherwise message hc]
      by_cases hr : c.run = run
      · subst hr
        rw [if_pos (mem_constraints_progress.mpr ⟨hc, rfl⟩)]
        cases c.declines message <;>
          simp [ho, progress, Progress.add, Progress.drop, Runs.entries_setEntries_self,
            List.erase_filter]
      · have hn : c ∉ (w.progress run).constraints := fun h => hr (mem_constraints_progress.mp h).2
        -- The constraint that is used up belongs to another run, so this one does not miss it.
        have he : (w.constraints.erase c).filter (·.run = run) =
            w.constraints.filter (·.run = run) := by
          rw [← List.erase_filter]
          exact List.erase_of_not_mem hn
        rw [if_neg hn]
        split
        · simp [progress, he]
        · simp [progress, Runs.entries_setEntries_ne _ _ (Ne.symm hr), hr, he]
    · rw [ask_of_not_mem rfl hc, if_neg fun h => hc (mem_constraints_progress.mp h).1]
  | register n c =>
    rw [Progress.ask]
    by_cases hc : c ∈ w.constraints
    · rw [ask_register n hc]
      by_cases hr : n.run = run
      · subst hr
        by_cases hcr : c.run = n.run
        · cases hs : c.satisfied <;>
            simp [ho, hcr, hc, progress, Progress.insert, Runs.entries_setEntries_self]
        · simp [hcr, mem_constraints_progress]
      · -- A constraint of this run may be offered to a node of another, which turns it down.
        have hn : ¬(n.run = run ∧ c ∈ (w.progress run).constraints ∧ c.satisfied = false) :=
          fun h => hr h.1
        rw [if_neg hn]
        split
        · rfl
        · simp [progress, Runs.entries_setEntries_ne _ _ (Ne.symm hr)]
    · rw [ask_of_not_mem rfl hc, if_neg fun h => hc (mem_constraints_progress.mp h.2.1).1]
  | report n v =>
    rw [ask_report, Progress.ask]
    by_cases hr : n.run = run
    · subst hr
      simp [ho, progress, Progress.insert, Runs.entries_setEntries_self]
    · rw [if_neg hr]
      split
      · rfl
      · simp [progress, Runs.entries_setEntries_ne _ _ (Ne.symm hr)]

theorem progress_start {w : World} (h : ∀ c ∈ w.constraints, c.run < w.runs.ledgers.length) :
    (w.step .start).progress w.runs.start.1 = .start := by
  have hn : w.constraints.filter (·.run = w.runs.start.1) = [] := by
    simp only [List.filter_eq_nil_iff, decide_eq_true_eq]
    exact fun c hc => Nat.ne_of_lt (h c hc)
  simp only [step, progress, Runs.ledger_start, hn]
  rfl

def Each (w : World) (P : Progress → Prop) : Prop :=
  ∀ run, (w.runs.ledger run).completed = false → P (w.progress run)

theorem Each.start {w : World} {P : Progress → Prop} (h : w.Each P) (h0 : P .start)
    (hc : ∀ c ∈ w.constraints, c.run < w.runs.ledgers.length) : (w.step .start).Each P := by
  intro run ho
  by_cases hr : run = w.runs.start.1
  · subst hr
    rw [progress_start hc]
    exact h0
  · simp only [step, progress, Runs.ledger_start_ne _ hr] at ho ⊢
    exact h run ho

theorem Each.complete {w : World} {P : Progress → Prop} (h : w.Each P) (run : RunId)
    (default : String) : (w.step (.complete run default)).Each P := by
  intro other ho
  by_cases hr : other = run
  · subst hr
    rw [step, Runs.completed_complete] at ho
    exact absurd ho (by simp)
  · simp only [step, progress, Runs.ledger_complete_ne _ _ hr] at ho ⊢
    exact h other ho

end World

end Vetting
