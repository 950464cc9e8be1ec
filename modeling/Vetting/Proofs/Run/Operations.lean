import Vetting.Block.Request
import Vetting.Proofs.Run.Collection

/-! The operations on runs, each as one equation: when it is refused, and what it does to the
collection of its run when it is not. A refused operation changes nothing. -/

namespace Vetting

@[ext]
theorem Ledger.ext {l k : Ledger} (he : l.entries = k.entries) (hc : l.completed = k.completed) :
    l = k := by
  cases l
  cases k
  cases he
  cases hc
  rfl

namespace Runs

theorem lt_of_open {rs : Runs} {run : RunId} (h : (rs.ledger run).completed = false) :
    run < rs.ledgers.length := by
  by_contra hn
  simp [ledger, List.getElem?_eq_none (Nat.le_of_not_lt hn), Ledger.closed] at h

theorem ledger_start_ne (rs : Runs) {run : RunId} (h : run ≠ rs.start.1) :
    rs.start.2.ledger run = rs.ledger run := by
  simp only [start] at h
  simp only [ledger, start]
  rcases Nat.lt_or_gt_of_ne h with hl | hl
  · rw [List.getElem?_append_left hl]
  · rw [List.getElem?_eq_none (by simp; omega), List.getElem?_eq_none (Nat.le_of_lt hl)]

theorem ledger_complete_ne (rs : Runs) {run other : RunId} (default : String) (h : other ≠ run) :
    (rs.complete run default).2.ledger other = rs.ledger other := ledger_setLedger_ne rs _ h

theorem completed_complete (rs : Runs) (run : RunId) (default : String) :
    ((rs.complete run default).2.ledger run).completed = true := by
  by_cases hl : run < rs.ledgers.length <;>
    simp [complete, setLedger, ledger, hl, Ledger.closed]

@[simp]
theorem setEntries_self (rs : Runs) (run : RunId) :
    rs.setEntries run (rs.ledger run).entries = rs := by
  obtain ⟨ls⟩ := rs
  simp only [setEntries, setLedger, mk.injEq]
  apply List.ext_getElem?
  intro i
  by_cases hi : i = run
  · subst hi
    by_cases hl : i < ls.length
    · simp [ledger, hl]
    · simp [hl]
  · simp [List.getElem?_set_ne (Ne.symm hi)]

theorem length_setEntries (rs : Runs) (run : RunId) (es : Entries) :
    (rs.setEntries run es).ledgers.length = rs.ledgers.length := by
  simp [setEntries, setLedger]

theorem completed_setEntries (rs : Runs) (run other : RunId) (es : Entries) :
    ((rs.setEntries run es).ledger other).completed = (rs.ledger other).completed := by
  by_cases ho : other = run
  · subst ho
    by_cases hl : other < rs.ledgers.length
    · simp [setEntries, hl]
    · simp [setEntries, setLedger, ledger, hl]
  · rw [setEntries, ledger_setLedger_ne _ _ ho]

theorem entries_setEntries_self {rs : Runs} {run : RunId} (es : Entries)
    (h : (rs.ledger run).completed = false) : ((rs.setEntries run es).ledger run).entries = es := by
  simp [setEntries, lt_of_open h]

theorem entries_setEntries_ne (rs : Runs) {run other : RunId} (es : Entries) (h : other ≠ run) :
    ((rs.setEntries run es).ledger other).entries = (rs.ledger other).entries := by
  rw [setEntries, ledger_setLedger_ne _ _ h]

theorem setEntries_setEntries (rs : Runs) (run : RunId) (es fs : Entries) :
    (rs.setEntries run es).setEntries run fs = rs.setEntries run fs := by
  by_cases hl : run < rs.ledgers.length
  · simp [setEntries, hl]
    simp [setLedger]
  · simp [setEntries, setLedger, List.set_eq_of_length_le (Nat.le_of_not_lt hl)]

end Runs

namespace Registry

variable {α : Type}

@[simp]
theorem run_pure (a : α) (rs : Runs) : (pure a : Registry α).run rs = (.ok a, rs) := rfl

@[simp]
theorem run_throw (m : Misuse) (rs : Runs) : (throw m : Registry α).run rs = (.error m, rs) := rfl

theorem run_requireOpen (run : RunId) (path : Path) (rs : Runs) :
    (requireOpen run path).run rs =
      if (rs.ledger run).completed then (.error (.runCompleted path), rs) else (.ok (), rs) := rfl

theorem run_update (run : RunId) (path : Path) (f : Entries → α × Entries) (rs : Runs) :
    (update run path f).run rs =
      if (rs.ledger run).completed then (.error (.runCompleted path), rs)
      else
        (.ok (f (rs.ledger run).entries).1, rs.setEntries run (f (rs.ledger run).entries).2) := rfl

theorem run_discard (op : Registry α) (rs : Runs) :
    (discard op).run rs =
      match op.run rs with
      | (.ok _, rs) => (.ok (), rs)
      | (.error m, rs) => (.error m, rs) := by
  change (op >>= fun _ => pure ()).run rs = _
  rw [run_bind]
  rfl

end Registry

namespace Constraint

def declared (satisfied : Bool) (path : Path) (run : RunId) (origin : Origin) (es : Entries) :
    Constraint × Entries :=
  let (owned, es) := if satisfied then (false, es) else es.insert ⟨path, none, some origin⟩
  ({ satisfied, path, message := none, overridable := false, origin, run, owned }, es)

def keeps (c : Constraint) (message : String) : Bool := c.satisfied || c.message = some message

def messaged (c : Constraint) (message : String) (es : Entries) : Constraint × Entries :=
  if c.keeps message then (c, es)
  else
    let (owned, es) := es.attach c.entry c.owned { c.entry with message := some message }
    ({ c with message := some message, overridable := false, owned }, es)

def judged (satisfied : Bool) (path : Path) (run : RunId) (name : RuleName) (message : String)
    (es : Entries) : Constraint × Entries :=
  let (c, es) := declared satisfied path run (.rule name) es
  let (c, es) := c.messaged message es
  (c.yielding, es)

theorem declared_true (path : Path) (run : RunId) (origin : Origin) (es : Entries) :
    declared true path run origin es = (⟨true, path, none, false, origin, run, false⟩, es) := rfl

theorem declared_false (path : Path) (run : RunId) (origin : Origin) (es : Entries) :
    declared false path run origin es =
      (⟨false, path, none, false, origin, run, (es.insert ⟨path, none, some origin⟩).1⟩,
        (es.insert ⟨path, none, some origin⟩).2) := rfl

theorem messaged_of_keeps {c : Constraint} {message : String} (h : c.keeps message = true)
    (es : Entries) : c.messaged message es = (c, es) := by simp [messaged, h]

theorem messaged_of_not_keeps {c : Constraint} {message : String} (h : c.keeps message = false)
    (es : Entries) :
    c.messaged message es =
      ({ c with
          message := some message, overridable := false
          owned := (es.attach c.entry c.owned { c.entry with message := some message }).1 },
        (es.attach c.entry c.owned { c.entry with message := some message }).2) := by
  simp [messaged, h]

theorem entry_ne_of_not_keeps {c : Constraint} {message : String} (h : c.keeps message = false) :
    ({ c.entry with message := some message } : Entry) ≠ c.entry := by
  intro he
  have hm : c.message = some message := (congrArg Entry.message he).symm
  simp [keeps, hm] at h

theorem judged_true (path : Path) (run : RunId) (name : RuleName) (message : String)
    (es : Entries) :
    judged true path run name message es =
      (⟨true, path, none, false, .rule name, run, false⟩, es) := rfl

theorem judged_false (path : Path) (run : RunId) (name : RuleName) (message : String)
    (es : Entries) :
    judged false path run name message es =
      (⟨false, path, some message, true, .rule name, run,
          (es.insert ⟨path, some message, some (.rule name)⟩).1⟩,
        (es.insert ⟨path, some message, some (.rule name)⟩).2) := by
  let e : Entry := ⟨path, none, some (.rule name)⟩
  have hi := Entries.attach_insert es (e := e) { e with message := some message }
    (.inl (Option.some_ne_none _))
  rw [Entries.insert_of_message (Option.some_ne_none _), ← hi]
  rfl

theorem run_declare (satisfied : Bool) (path : Path) (run : RunId) (origin : Origin) (rs : Runs) :
    (declare satisfied path run origin).run rs =
      if (rs.ledger run).completed then (.error (.runCompleted path), rs)
      else
        (.ok (declared satisfied path run origin (rs.ledger run).entries).1,
          rs.setEntries run (declared satisfied path run origin (rs.ledger run).entries).2) := by
  unfold declare
  rw [Registry.run_bind, Registry.run_requireOpen]
  cases hc : (rs.ledger run).completed with
  | true => rfl
  | false =>
    cases satisfied with
    | true => simp [-bind_pure_comp, declared]
    | false =>
      simp [-bind_pure_comp, Registry.run_bind, Registry.insert, Registry.run_update, hc, declared]

theorem run_otherwise (c : Constraint) (message : String) (rs : Runs) :
    (c.otherwise message).run rs =
      if c.keeps message then (.ok c, rs)
      else if c.refuses message then
        (.error (.conflictingMessage c.path (c.message.getD "") message), rs)
      else if (rs.ledger c.run).completed then (.error (.runCompleted c.path), rs)
      else
        (.ok (c.messaged message (rs.ledger c.run).entries).1,
          rs.setEntries c.run (c.messaged message (rs.ledger c.run).entries).2) := by
  unfold otherwise
  rw [show (c.satisfied || decide (c.message = some message)) = c.keeps message from rfl]
  cases hk : c.keeps message with
  | true => rfl
  | false =>
    cases hr : c.refuses message with
    | true => simp
    | false =>
      cases hc : (rs.ledger c.run).completed <;>
        simp [-bind_pure_comp, Registry.run_bind, Registry.attach, Registry.run_update, hc,
          messaged, hk, entry]

theorem run_otherwise_of_open {c : Constraint} {message : String} {rs : Runs}
    (hc : (rs.ledger c.run).completed = false) (hr : c.refuses message = false) :
    (c.otherwise message).run rs =
      (.ok (c.messaged message (rs.ledger c.run).entries).1,
        rs.setEntries c.run (c.messaged message (rs.ledger c.run).entries).2) := by
  rw [run_otherwise]
  by_cases hk : c.keeps message
  · simp [hk, messaged]
  · simp [hk, hr, hc]

@[simp]
theorem run_declared (satisfied : Bool) (path : Path) (run : RunId) (origin : Origin)
    (es : Entries) : (declared satisfied path run origin es).1.run = run := rfl

@[simp]
theorem run_messaged (c : Constraint) (message : String) (es : Entries) :
    (c.messaged message es).1.run = c.run := by
  unfold messaged
  split <;> rfl

@[simp]
theorem run_judged (satisfied : Bool) (path : Path) (run : RunId) (name : RuleName)
    (message : String) (es : Entries) :
    (judged satisfied path run name message es).1.run = run := by
  simp [judged, yielding]

theorem refuses_declared (satisfied : Bool) (path : Path) (run : RunId) (origin : Origin)
    (es : Entries) (message : String) :
    (declared satisfied path run origin es).1.refuses message = false := rfl

end Constraint

namespace Node

variable {α : Type}

theorem run_register (n : Node α) (c : Constraint) (rs : Runs) :
    (n.register c).run rs =
      if (rs.ledger n.run).completed then (.error (.runCompleted n.path), rs)
      else if c.run ≠ n.run then (.error (.foreignConstraint c.path), rs)
      else if c.satisfied then (.ok (), rs)
      else (.ok (), rs.setEntries n.run ((rs.ledger n.run).entries.insert c.entry).2) := by
  unfold register
  rw [Registry.run_bind, Registry.run_requireOpen]
  cases hc : (rs.ledger n.run).completed with
  | true => rfl
  | false =>
    by_cases hr : c.run = n.run
    · cases hs : c.satisfied with
      | true => simp [hr]
      | false => simp [hr, Registry.run_discard, Registry.insert, Registry.run_update, hc]
    · simp [hr]

theorem run_report (n : Node α) (v : Violation) (rs : Runs) :
    (n.report v).run rs =
      if (rs.ledger n.run).completed then (.error (.runCompleted v.path), rs)
      else (.ok (), rs.setEntries n.run ((rs.ledger n.run).entries.insert (.ofViolation v)).2) := by
  unfold report
  rw [Registry.run_discard, Registry.insert, Registry.run_update]
  cases hc : (rs.ledger n.run).completed <;> simp [Entry.ofViolation]

theorem run_judge (n : Node α) (outcome : Option Bool) (name : RuleName) (message : String)
    (rs : Runs) :
    (n.judge outcome name message).run rs =
      if (rs.ledger n.run).completed then (.error (.runCompleted n.path), rs)
      else
        let r := Constraint.judged (outcome.getD true) n.path n.run name message
          (rs.ledger n.run).entries
        (.ok r.1, rs.setEntries n.run r.2) := by
  unfold judge declare
  rw [Registry.run_bind, Constraint.run_declare]
  cases hc : (rs.ledger n.run).completed with
  | true => rfl
  | false =>
    let d := Constraint.declared (outcome.getD true) n.path n.run (.rule name)
      (rs.ledger n.run).entries
    have ho : (d.1.otherwise message).run (rs.setEntries n.run d.2) =
        (.ok (d.1.messaged message d.2).1, rs.setEntries n.run (d.1.messaged message d.2).2) := by
      rw [Constraint.run_otherwise_of_open
        (by rw [Constraint.run_declared, Runs.completed_setEntries, hc])
        (Constraint.refuses_declared ..)]
      simp only [d, Constraint.run_declared, Runs.entries_setEntries_self _ hc,
        Runs.setEntries_setEntries]
    simp [-bind_pure_comp, Registry.run_bind, Constraint.judged, d, ho]

end Node

end Vetting
