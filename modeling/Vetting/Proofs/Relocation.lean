import Vetting.Proofs.Block.Lockstep
import Vetting.Proofs.Block.Record
import Vetting.Proofs.Run.Relocation

/-! Runs below a path. When a block takes all its places from its root, a run whose root stands
below a path comes to the same outcome, with all places below that path; and whether other runs have
been started before makes no difference. -/

namespace Vetting

def Violation.below (p : Path) (v : Violation) : Violation := { v with path := p ++ v.path }

namespace Outcome

/-- The second outcome is the first below a path: it is of the same kind, and has the same messages
in the same order. Each outcome has a subject of its own. -/
inductive Below (p : Path) (subject subject' : Json) : Outcome → Outcome → Prop where
  | success : Below p subject subject' (.success subject) (.success subject')
  | failure {report report' : Report} : report'.toList = report.toList.map (.below p) →
    Below p subject subject' (.failure report) (.failure report')
  | error (error : String) : Below p subject subject' (.error error) (.error error)
  | misused (m : Misuse) :
    Below p subject subject' (.panicked m.message) (.panicked (m.placed (p ++ ·)).message)
  | panicked (text : String) : Below p subject subject' (.panicked text) (.panicked text)
  | abandoned : Below p subject subject' .abandoned .abandoned

theorem below_ofViolations (p : Path) (subject subject' : Json) (vs : List Violation) :
    Below p subject subject' (ofViolations subject vs)
      (ofViolations subject' (vs.map (.below p))) := by
  cases vs with
  | nil => exact .success
  | cons v vs => exact .failure rfl

theorem Below.eq_of_root {subject : Json} {o o' : Outcome} (h : Below .root subject subject o o') :
    o' = o := by
  have hv : Violation.below .root = id := by
    funext v
    rw [Violation.below, Path.root_append]
    rfl
  cases h with
  | failure h => rw [Report.ext (h.trans (by rw [hv, List.map_id]))]
  | misused m => rw [m.placed_root]
  | _ => rfl

end Outcome

namespace Transfer

theorem matches_start (p : Path) (rs rs' : Runs) (lenient : Prop) :
    (relocation p rs.start.1 rs'.start.1 lenient).Matches rs.start.2 rs'.start.2 where
  opened := congrArg Ledger.completed rs.ledger_start
  opened' := congrArg Ledger.completed rs'.ledger_start
  corresponds := by
    change (rs'.start.2.ledger rs'.start.1).entries =
      (rs.start.2.ledger rs.start.1).entries.map _
    rw [rs.ledger_start, rs'.ledger_start]
    rfl

theorem Ends.below {p : Path} {source target : RunId} {lenient : Prop}
    {r r' : Except Halt Unit × State}
    (h : (relocation p source target lenient).Ends
      (fun _ _ s t => (relocation p source target lenient).Matches s.runs t.runs) r r')
    (v v' : Validator) (hd : v'.configuration.defaultMessage = v.configuration.defaultMessage)
    (subject subject' : Json) :
    Outcome.Below p subject subject' (v.conclude subject source r)
        (v'.conclude subject' target r') ∨
      lenient ∧ v'.conclude subject' target r' = .abandoned := by
  cases h with
  | @returned _ _ s t hm =>
    have he : (t.runs.ledger target).entries =
        (s.runs.ledger source).entries.map (Mapping.below p source target).entry := hm.corresponds
    have hv : (t.runs.ledger target).violations v'.configuration.defaultMessage =
        ((s.runs.ledger source).violations v.configuration.defaultMessage).map (.below p) := by
      rw [Ledger.violations, Ledger.violations, he, hd, List.map_map, List.map_map]
      rfl
    refine .inl ?_
    rw [Validator.conclude_ok, Validator.conclude_ok, hv]
    exact Outcome.below_ofViolations p subject subject' _
  | halted halt =>
    refine .inl ?_
    cases halt with
    | failed error => exact .error error
    | misused m => exact .misused m
    | panicked text => exact .panicked text
    | abandoned => exact .abandoned
  | givenUp r t hl => exact .inr ⟨hl, rfl⟩

end Transfer

namespace Validator

/-- The block of a run uses nothing that names stood for before the run. -/
def SelfContained (v : Validator) (subject context : Json) (s : State) : Prop :=
  let opened := (v.openRun subject).run s
  (v.rules.execute v.library.nested context opened.1).SelfContained opened.2

theorem selfContained_of_empty (v : Validator) (subject context : Json) {s : State}
    (h : s.scope = .empty) : v.SelfContained subject context s := by
  have he : { ((v.openRun subject).run s).2 with scope := .empty } =
      ((v.openRun subject).run s).2 := by
    rw [← h]
    rfl
  change (Prod.fst _ = _) ∧ (State.runs (Prod.snd _) = _)
  rw [he]
  exact ⟨rfl, rfl⟩

theorem below_run {v v' : Validator} (p : Path) (subject context : Json) {s t : State}
    (hd : v'.configuration.defaultMessage = v.configuration.defaultMessage)
    (h : v.SelfContained subject context s) (h' : v'.SelfContained subject context t)
    (hl : Action.Steps (.relocation p s.nextRun t.nextRun False)
      (v.rules.execute v.library.nested context ((v.openRun subject).run s).1)
      (v'.rules.execute v'.library.nested context ((v'.openRun subject).run t).1)) :
    Outcome.Below p subject subject ((v.run subject context).run s).1
      ((v'.run subject context).run t).1 := by
  have he := h.ends h' hl (Transfer.matches_start p s.runs t.runs False)
  rw [run_eq_conclude, run_eq_conclude]
  exact (he.below v v' hd subject subject).resolve_right fun hn => hn.1

theorem run_eq_validate (v : Validator) (subject context : Json) {s : State}
    (h : v.SelfContained subject context s) :
    ((v.run subject context).run s).1 = v.validate subject context := by
  have hi : v.SelfContained subject context .initial :=
    v.selfContained_of_empty subject context rfl
  have hl : Action.Steps (.relocation .root State.initial.nextRun s.nextRun False)
      (v.rules.execute v.library.nested context ((v.openRun subject).run .initial).1)
      (v.rules.execute v.library.nested context ((v.openRun subject).run s).1) := by
    have hn : (Mapping.below .root State.initial.nextRun s.nextRun).node
        ((v.openRun subject).run .initial).1 = ((v.openRun subject).run s).1 :=
      Mapping.below_root_node ..
    rw [← hn]
    exact RuleSet.steps_of_unmoved (L := .relocation .root State.initial.nextRun s.nextRun False)
      Path.root_append v.library v.rules (Nat.le_refl Library.depthLimit) (.inr rfl) context rfl
  exact (below_run .root subject context rfl hi h hl).eq_of_root

end Validator

end Vetting
