import Vetting.Proofs.Block.Atomicity
import Vetting.Proofs.Block.Record

/-! The end of a run. When its block has returned, the run is completed and its collection is empty
for the rest of the session: whatever goes through its nodes is refused, and the results that were
handed out stay as they are. A constraint that is offered a message looks at its run last, though:
it tells that the run is over only if it would have taken the message. -/

namespace Vetting

namespace Validator

variable (v : Validator) (subject context : Json) {s : State}

theorem ledger_run (h : s.Faithful []) :
    s.nextRun < ((v.run subject context).run s).2.runs.ledgers.length ∧
      ((v.run subject context).run s).2.runs.ledger s.nextRun =
        if ((v.run subject context).run s).1.returned then .closed
        else ⟨v.found subject context s, false⟩ := by
  have ho := (v.progress_play subject context h).1
  have hl : s.nextRun < (v.play subject context s).2.runs.ledgers.length := Runs.lt_of_open ho
  have hstill : (v.play subject context s).2.runs.ledger s.nextRun =
      ⟨v.found subject context s, false⟩ := by
    rw [← ho]
    rfl
  have hclosed : ((v.closeRun s.nextRun).run (v.play subject context s).2).2.runs.ledger
      s.nextRun = .closed := Runs.ledger_setLedger_self _ _ _ hl
  have hlength : s.nextRun <
      ((v.closeRun s.nextRun).run (v.play subject context s).2).2.runs.ledgers.length := by
    change s.nextRun < ((v.play subject context s).2.runs.setLedger s.nextRun _).ledgers.length
    simpa [Runs.setLedger] using hl
  rcases v.run_leaves subject context s with ⟨hr, he⟩ | ⟨hr, he⟩
  · rw [he, hr]
    exact ⟨hlength, hclosed⟩
  · rw [he, hr]
    exact ⟨hl, hstill⟩

theorem run_of_failed {error : String}
    (h : (v.play subject context s).1 = .error (.failed error)) :
    ((v.run subject context).run s).1 = .error error := by
  rw [run_run, h]
  rfl

end Validator

/-- The run is over: nothing is kept of it, and whatever goes through its nodes is refused. -/
structure Runs.Sealed (rs : Runs) (run : RunId) : Prop where
  closed : rs.ledger run = .closed
  declare : ∀ (n : Node Content) (satisfied : Bool) (origin : Origin), n.run = run →
    (Request.declare n satisfied origin).perform.run rs = (.error (.runCompleted n.path), rs)
  apply : ∀ (n : Node Content) (rule : Rule), n.run = run →
    (Request.apply n rule).perform.run rs = (.error (.runCompleted n.path), rs)
  register : ∀ (n : Node Content) (c : Constraint), n.run = run →
    (Request.register n c).perform.run rs = (.error (.runCompleted n.path), rs)
  report : ∀ (n : Node Content) (v : Violation), n.run = run →
    (Request.report n v).perform.run rs = (.error (.runCompleted v.path), rs)

theorem Runs.sealed_of_closed {rs : Runs} {run : RunId} (h : rs.ledger run = .closed) :
    rs.Sealed run := by
  have hc : ∀ n : Node Content, n.run = run → (rs.ledger n.run).completed = true := by
    intro n hn
    rw [hn, h]
    rfl
  exact
    { closed := h
      declare := fun n satisfied origin hn =>
        (Constraint.run_declare ..).trans (if_pos (hc n hn))
      apply := fun n rule hn => (n.run_apply rule rs).trans (if_pos (hc n hn))
      register := fun n c hn => (n.run_register c rs).trans (if_pos (hc n hn))
      report := fun n v hn => (n.run_report v rs).trans (if_pos (hc n hn)) }

namespace Validator

theorem sealed_of_returned (v : Validator) (subject context : Json) {s : State}
    (h : s.Faithful []) (hr : ((v.run subject context).run s).1.returned = true)
    (more : List Deed) :
    (World.after (((v.run subject context).run s).2.deeds.toList ++ more)).runs.Sealed
      s.nextRun := by
  obtain ⟨hl, hc⟩ := v.ledger_run subject context h
  rw [if_pos hr, ← (v.faithful_run subject context h).runs] at hc
  rw [← (v.faithful_run subject context h).runs] at hl
  refine Runs.sealed_of_closed ?_
  rw [World.after_append]
  exact World.closed_foldl hl hc more

end Validator

theorem Session.sealed_of_returned (steps : List SessionStep) (v : Validator)
    (subject context : Json)
    (hr : ((v.run subject context).run { Session.state steps with events := #[] }).1.returned =
      true) (more : List Deed) :
    (World.after ((Session.state (steps ++ [.run v subject context])).deeds.toList ++
      more)).runs.Sealed (Session.state steps).nextRun := by
  have hs : State.Faithful { Session.state steps with events := #[] } [] :=
    (Session.faithful_state steps).answering #[]
  rw [state_run]
  exact v.sealed_of_returned subject context hs hr more

/-- A request that is refused changes no run, and a statement that makes one request changes none
when it is halted or answers with a misuse or a failed predicate. When the block of a run has
returned, with or without an error, the run is over in every state of the session that follows, and
the answers given so far stay. -/
theorem Session.atomic_and_sealed (steps : List SessionStep) :
    (∀ (q : Request) (rs : Runs) (m : Misuse), (q.perform.run rs).1 = .error m →
      (q.perform.run rs).2 = rs) ∧
    (∀ (st : Statement) (nested : Nested) (context : Context) (s : State), st.operates = true →
      let r := (st.execute nested context).run s
      ((∃ halt, r.1 = .error halt) ∨ ∃ e, e.refuses = true ∧ r.2.events = s.events.push e) →
        r.2.runs = s.runs) ∧
    ∀ (v : Validator) (subject context : Json),
      let s := { Session.state steps with events := #[] }
      let block := v.play subject context s
      let outcome := ((v.run subject context).run s).1
      let finished := Session.state (steps ++ [.run v subject context])
      (block.1 = .ok () → outcome = .ofViolations subject
        ((v.found subject context s).map (·.toViolation v.configuration.defaultMessage))) ∧
      (∀ error, block.1 = .error (.failed error) → outcome = .error error) ∧
      (outcome.returned = true → ∀ more : List Deed,
        (World.after (finished.deeds.toList ++ more)).runs.Sealed s.nextRun) ∧
      ∀ later : List SessionStep,
        let following := Session.state (steps ++ [.run v subject context] ++ later)
        (∃ more, following.deeds.toList = finished.deeds.toList ++ more ∧
          following.runs = (World.after (finished.deeds.toList ++ more)).runs) ∧
        Session.answers (steps ++ [.run v subject context]) <+:
          Session.answers (steps ++ [.run v subject context] ++ later) := by
  refine ⟨fun q rs m => Request.runs_of_refused, fun st nested context s hst =>
    Statement.runs_of_refuses hst nested context, fun v subject context => ?_⟩
  intro s block outcome finished
  refine ⟨v.run_of_returned subject context, fun error => v.run_of_failed subject context,
    Session.sealed_of_returned steps v subject context,
    fun later => ⟨?_, Session.answers_append ..⟩⟩
  obtain ⟨more, hm⟩ := Session.deeds_append (steps ++ [.run v subject context]) later
  refine ⟨more, hm.symm, ?_⟩
  rw [hm]
  exact (Session.faithful_state _).runs.symm

def lingering : Validator :=
  ⟨⟨"root", false,
    [.constrain "root" (some "held") .always 0 (.constant false) false,
      .otherwise "held" "Refused" .unwind,
      .constrain "root" (some "mute") .always 1 (.constant false) false]⟩, .standard, []⟩

def belated : Statement := .constrain "root" none .always 2 (.constant true) false

theorem lingering_sealed :
    let finished := Session.state [.run lingering .null .null]
    ((belated.execute (Library.nested []) none).run finished).2.runs = finished.runs ∧
      (World.after (finished.deeds.toList ++
        [.start, .ask (.report ⟨.plain (.json .null), .root, 0⟩ ⟨.root, "Late"⟩)])).runs.Sealed
          0 := by
  obtain ⟨-, ha, hv⟩ := Session.atomic_and_sealed []
  refine ⟨ha belated (Library.nested []) none _ rfl (.inl ⟨_, rfl⟩), ?_⟩
  exact (hv lingering .null .null).2.2.1 rfl _

theorem Constraint.refuses_eq_false_iff {c : Constraint} {message : String}
    (h : c.message ≠ some message) :
    c.refuses message = false ↔ c.message = none ∨ c.overridable = true := by
  cases hm : c.message with
  | none => simp [refuses, hm]
  | some existing =>
    have hne : existing ≠ message := fun he => h (he ▸ hm)
    simp [refuses, hm, hne]

/-- After the end of a run, an unsatisfied constraint of it takes the message that it has, and turns
down others for a message that has to stay; only if neither is the case does it tell that the run is
over. Whatever goes through the run's nodes is always told so. -/
theorem Validator.otherwise_after_return (steps : List SessionStep) (v : Validator)
    (subject context : Json) :
    let s := { Session.state steps with events := #[] }
    ((v.run subject context).run s).1.returned = true → ∀ more : List Deed,
      let w := World.after
        ((Session.state (steps ++ [.run v subject context])).deeds.toList ++ more)
      w.runs.Sealed s.nextRun ∧
      ∀ c : Constraint, c.run = s.nextRun → c.satisfied = false → ∀ message : String,
        let r := (Request.otherwise c message).perform.run w.runs
        (c.message = some message → r = (.ok c, w.runs)) ∧
        (c.message ≠ some message → c.refuses message = true →
          r = (.error (.conflictingMessage c.path (c.message.getD "") message), w.runs)) ∧
        (r = (.error (.runCompleted c.path), w.runs) ↔
          c.message ≠ some message ∧ (c.message = none ∨ c.overridable = true)) := by
  intro s hr more w
  have hw : w.runs.Sealed s.nextRun :=
    Session.sealed_of_returned steps v subject context hr more
  refine ⟨hw, fun c hc hu message => ?_⟩
  intro r
  have ho : (w.runs.ledger c.run).completed = true := by
    rw [hc, hw.closed]
    rfl
  have hk : c.keeps message = decide (c.message = some message) := by
    simp [Constraint.keeps, hu]
  have hrun : r = if c.message = some message then (.ok c, w.runs)
      else if c.refuses message then
        (.error (.conflictingMessage c.path (c.message.getD "") message), w.runs)
      else (.error (.runCompleted c.path), w.runs) := by
    change (c.otherwise message).run w.runs = _
    rw [Constraint.run_otherwise, hk, ho]
    simp
  rw [hrun]
  refine ⟨fun hm => if_pos hm, fun hm hcr => by rw [if_neg hm, if_pos hcr], ?_⟩
  split
  · rename_i hm
    refine iff_of_false (fun h => ?_) fun h => h.1 hm
    cases h
  · rename_i hm
    rw [← Constraint.refuses_eq_false_iff hm]
    split
    · rename_i hcr
      refine iff_of_false (fun h => ?_) fun h => Bool.false_ne_true (h.2.symm.trans hcr)
      cases h
    · rename_i hcr
      exact iff_of_true rfl ⟨hm, eq_false_of_ne_true hcr⟩

theorem lingering_refused :
    let w := World.after (Session.state [.run lingering .null .null]).deeds.toList
    let mute : Constraint := ⟨false, .root, none, false, .site .always 1, 0, true⟩
    mute ∈ w.constraints ∧
      (Request.otherwise mute "Late").perform.run w.runs =
        (.error (.runCompleted .root), w.runs) := by
  intro w mute
  have h := (Validator.otherwise_after_return [] lingering .null .null rfl []).2 mute rfl rfl "Late"
  rw [List.append_nil] at h
  exact ⟨by decide +kernel, h.2.2.mpr ⟨by simp [mute], .inl rfl⟩⟩

/-- The run is over, and yet the text that the constraint has is accepted, and any other answered as
a conflict. -/
theorem lingering_answers_late :
    let w := World.after (Session.state [.run lingering .null .null]).deeds.toList
    let held : Constraint := ⟨false, .root, some "Refused", false, .site .always 0, 0, true⟩
    ((lingering.run .null .null).run (Session.state [])).1.returned = true ∧
      held ∈ w.constraints ∧ held.satisfied = false ∧
      ((Request.otherwise held "Refused").perform.run w.runs).1 = .ok held ∧
      ((Request.otherwise held "Late").perform.run w.runs).1 =
        .error (.conflictingMessage .root "Refused" "Late") :=
  ⟨rfl, by decide +kernel, rfl, rfl, rfl⟩

end Vetting
