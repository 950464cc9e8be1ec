import Mathlib.Data.List.Basic
import Vetting.Proofs.Run.World

/-! Renaming what a run has found. As long as different entries stay different and nothing speaks
for another entry than before, all that is done to a collection commutes with the renaming. Such are
the renamings of declaring places. -/

namespace Vetting

structure Entry.Renames (f : Entry → Entry) : Prop where
  injective : Function.Injective f
  message : ∀ e, (f e).message = e.message
  origin : ∀ e, (f e).origin.isSome = e.origin.isSome
  speaksFor : ∀ e pending, (f e).speaksFor (f pending) = e.speaksFor pending

namespace Entries

variable {f : Entry → Entry} (h : Entry.Renames f) (es : Entries)

include h

theorem insertNew_map (e : Entry) :
    insertNew (es.map f) (f e) = ((es.insertNew e).1, (es.insertNew e).2.map f) := by
  simp only [insertNew, List.mem_map_of_injective h.injective]
  split
  · rfl
  · rw [List.map_append]
    rfl

theorem insert_map (e : Entry) :
    insert (es.map f) (f e) = ((es.insert e).1, (es.insert e).2.map f) := by
  have ha : (es.map f).any (·.speaksFor (f e)) = es.any (·.speaksFor e) := by
    rw [List.any_map]
    exact congrArg es.any (funext fun k => h.speaksFor k e)
  unfold insert
  rw [ha, h.message, h.origin]
  split
  · rfl
  · exact insertNew_map h es e

theorem replace_map (current messaged : Entry) :
    (es.map f).replace (f current) (f messaged) = (es.replace current messaged).map f := by
  have he : ∀ e, (f current == f e) = (current == e) := fun e => by
    rw [Bool.eq_iff_iff, beq_iff_eq, beq_iff_eq, h.injective.eq_iff]
  induction es with
  | nil => rfl
  | cons e es ih =>
    rw [List.map_cons, List.replace_cons, List.replace_cons, he, ih]
    split <;> rfl

theorem attach_map (current messaged : Entry) (owned : Bool) :
    attach (es.map f) (f current) owned (f messaged) =
      ((es.attach current owned messaged).1, (es.attach current owned messaged).2.map f) := by
  have hi := h.injective
  simp only [attach, ← List.map_erase hi, List.mem_map_of_injective hi, replace_map h]
  split
  · split <;> rfl
  · exact insertNew_map h es messaged

end Entries

/-- Renames declaring places. Different places stay different, and rules keep theirs. -/
structure Renaming where
  origin : Origin → Origin
  injective : Function.Injective origin
  rule : ∀ name, origin (.rule name) = .rule name

namespace Renaming

variable (f : Renaming)

def entry (e : Entry) : Entry := { e with origin := e.origin.map f.origin }

def constraint (c : Constraint) : Constraint := { c with origin := f.origin c.origin }

def ledger (l : Ledger) : Ledger := { l with entries := l.entries.map f.entry }

def runs (rs : Runs) : Runs := ⟨rs.ledgers.map f.ledger⟩

theorem entry_renames : Entry.Renames f.entry where
  injective := by
    rintro ⟨p, message, origin⟩ ⟨q, message', origin'⟩ h
    injection h with hp hmessage horigin
    cases hp
    cases hmessage
    cases Option.map_injective f.injective horigin
    rfl
  message _ := rfl
  origin _ := Option.isSome_map
  speaksFor e pending := by
    have hi := Option.map_injective f.injective
    rw [Bool.eq_iff_iff, Entry.speaksFor_iff, Entry.speaksFor_iff]
    simp only [Entry.declaration, entry, Prod.mk.injEq, hi.eq_iff]

@[simp]
theorem ledger_runs (rs : Runs) (run : RunId) :
    (f.runs rs).ledger run = f.ledger (rs.ledger run) := by
  rw [Runs.ledger, Runs.ledger, runs, List.getElem?_map]
  cases rs.ledgers[run]? <;> rfl

@[simp]
theorem completed_ledger (l : Ledger) : (f.ledger l).completed = l.completed := rfl

theorem setEntries_runs (rs : Runs) (run : RunId) (es : Entries) :
    (f.runs rs).setEntries run (es.map f.entry) = f.runs (rs.setEntries run es) := by
  rw [Runs.setEntries, Runs.setEntries, Runs.setLedger, Runs.setLedger, ledger_runs, runs, runs,
    List.map_set]
  rfl

theorem violations_ledger (l : Ledger) (default : String) :
    (f.ledger l).violations default = l.violations default := by
  rw [Ledger.violations, Ledger.violations, ledger, List.map_map]
  rfl

section

variable (es : Entries)

theorem declared_map (satisfied : Bool) (path : Path) (run : RunId) (origin : Origin) :
    Constraint.declared satisfied path run (f.origin origin) (es.map f.entry) =
      (f.constraint (Constraint.declared satisfied path run origin es).1,
        (Constraint.declared satisfied path run origin es).2.map f.entry) := by
  cases satisfied with
  | true => rfl
  | false =>
    have hi := Entries.insert_map f.entry_renames es ⟨path, none, some origin⟩
    rw [Constraint.declared_false, Constraint.declared_false]
    exact congrArg (fun r =>
      (Constraint.mk false path none false (f.origin origin) run r.1, r.2)) hi

theorem messaged_map (c : Constraint) (message : String) :
    (f.constraint c).messaged message (es.map f.entry) =
      (f.constraint (c.messaged message es).1, (c.messaged message es).2.map f.entry) := by
  cases hk : c.keeps message with
  | true =>
    have hk' : (f.constraint c).keeps message = true := hk
    rw [Constraint.messaged_of_keeps hk, Constraint.messaged_of_keeps hk']
  | false =>
    have hk' : (f.constraint c).keeps message = false := hk
    have ha := Entries.attach_map f.entry_renames es c.entry
      { c.entry with message := some message } c.owned
    rw [Constraint.messaged_of_not_keeps hk, Constraint.messaged_of_not_keeps hk']
    exact congrArg (fun r => ({ f.constraint c with
      message := some message, overridable := false, owned := r.1 }, r.2)) ha

theorem judged_map (satisfied : Bool) (path : Path) (run : RunId) (name : RuleName)
    (message : String) :
    Constraint.judged satisfied path run name message (es.map f.entry) =
      (f.constraint (Constraint.judged satisfied path run name message es).1,
        (Constraint.judged satisfied path run name message es).2.map f.entry) := by
  have hd := f.declared_map es satisfied path run (.rule name)
  rw [f.rule] at hd
  rw [Constraint.judged, hd]
  dsimp only
  rw [messaged_map]
  rfl

end

def Answers {α β : Type} (h : α → β) (op : Registry α) (op' : Registry β) : Prop :=
  ∀ rs, op'.run (f.runs rs) = ((op.run rs).1.map h, f.runs (op.run rs).2)

theorem answers_declare (n : Node Content) (satisfied : Bool) (origin : Origin) :
    f.Answers f.constraint (n.declare satisfied origin)
      (n.declare satisfied (f.origin origin)) := by
  intro rs
  rw [Node.declare, Node.declare, Constraint.run_declare, Constraint.run_declare, ledger_runs,
    completed_ledger]
  split
  · rfl
  · rw [ledger, declared_map]
    exact congrArg (Prod.mk _) (f.setEntries_runs rs n.run _)

theorem answers_apply (n : Node Content) (r : Rule) :
    f.Answers f.constraint (n.apply r) (n.apply r) := by
  intro rs
  rw [Node.run_apply, Node.run_apply, ledger_runs, completed_ledger]
  split
  · rfl
  · rw [ledger, judged_map]
    exact congrArg (Prod.mk _) (f.setEntries_runs rs n.run _)

theorem answers_otherwise (c : Constraint) (message : String) :
    f.Answers f.constraint (c.otherwise message) ((f.constraint c).otherwise message) := by
  intro rs
  have hk : (f.constraint c).keeps message = c.keeps message := rfl
  have hr : (f.constraint c).refuses message = c.refuses message := rfl
  have hl : (f.runs rs).ledger (f.constraint c).run = f.ledger (rs.ledger c.run) :=
    f.ledger_runs rs c.run
  rw [Constraint.run_otherwise, Constraint.run_otherwise, hk, hr, hl, completed_ledger]
  split
  · rfl
  · split
    · rfl
    · split
      · rfl
      · rw [ledger, messaged_map]
        exact congrArg (Prod.mk _) (f.setEntries_runs rs c.run _)

theorem answers_register (n : Node Content) (c : Constraint) :
    f.Answers id (n.register c) (n.register (f.constraint c)) := by
  intro rs
  have hs : (f.constraint c).satisfied = c.satisfied := rfl
  have hr : (f.constraint c).run = c.run := rfl
  have he := Entries.insert_map f.entry_renames (rs.ledger n.run).entries c.entry
  rw [Node.run_register, Node.run_register, ledger_runs, completed_ledger, hs, hr]
  split
  · rfl
  · split
    · rfl
    · split
      · rfl
      · rw [← setEntries_runs]
        exact congrArg (fun r => (Except.ok (), (f.runs rs).setEntries n.run r.2)) he

theorem answers_report (n : Node Content) (v : Violation) :
    f.Answers id (n.report v) (n.report v) := by
  intro rs
  have he := Entries.insert_map f.entry_renames (rs.ledger n.run).entries (.ofViolation v)
  rw [Node.run_report, Node.run_report, ledger_runs, completed_ledger]
  split
  · rfl
  · rw [← setEntries_runs]
    exact congrArg (fun r => (Except.ok (), (f.runs rs).setEntries n.run r.2)) he

end Renaming

end Vetting
