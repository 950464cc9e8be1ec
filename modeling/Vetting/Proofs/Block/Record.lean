import Vetting.Proofs.Block.Execution
import Vetting.Proofs.Run.Ownership

/-! The record of a run: the requests that its block makes between the start of the run and the end
of the block. What the run has found by then is what these requests come to, and if the block
returns, the outcome is read from it. -/

namespace Vetting

namespace Progress

def after (run : RunId) (qs : List Request) : Progress := qs.foldl (ask run) start

@[simp]
theorem after_nil (run : RunId) : after run [] = start := rfl

theorem after_concat (run : RunId) (qs : List Request) (q : Request) :
    after run (qs ++ [q]) = (after run qs).ask run q := by simp [after]

theorem run_of_mem_constraints {run : RunId} {qs : List Request} {c : Constraint}
    (h : c ∈ (after run qs).constraints) : c.run = run := by
  induction qs using List.reverseRecOn generalizing c with
  | nil => exact absurd h List.not_mem_nil
  | append_singleton qs q ih =>
    rw [after_concat] at h
    cases q with
    | declare n satisfied origin =>
      rw [ask] at h
      split at h
      · rcases List.mem_cons.mp h with rfl | h
        · rfl
        · exact ih h
      · exact ih h
    | apply n r =>
      rw [ask] at h
      split at h
      · rcases List.mem_cons.mp h with rfl | h
        · exact Constraint.run_judged ..
        · exact ih h
      · exact ih h
    | otherwise d message =>
      rw [ask] at h
      split at h
      · rename_i hd
        split at h
        · exact ih (List.mem_of_mem_erase h)
        · rcases List.mem_cons.mp h with rfl | h
          · rw [Constraint.run_messaged]
            exact ih hd
          · exact ih (List.mem_of_mem_erase h)
      · exact ih h
    | register n d =>
      rw [ask] at h
      split at h <;> exact ih h
    | report n v =>
      rw [ask] at h
      split at h <;> exact ih h

theorem sound_after (run : RunId) (qs : List Request) : (after run qs).Sound := by
  induction qs using List.reverseRecOn with
  | nil => exact sound_start
  | append_singleton qs q ih =>
    rw [after_concat]
    exact ih.ask run q

end Progress

namespace World

theorem progress_asks {w : World} {run : RunId} (ho : (w.runs.ledger run).completed = false)
    (qs : List Request) :
    (((qs.map Deed.ask).foldl step w).runs.ledger run).completed = false ∧
      ((qs.map Deed.ask).foldl step w).progress run =
        qs.foldl (Progress.ask run) (w.progress run) := by
  induction qs generalizing w with
  | nil => exact ⟨ho, rfl⟩
  | cons q qs ih =>
    have hq : ((w.ask q).runs.ledger run).completed = false := by rw [completed_ask, ho]
    obtain ⟨hc, hp⟩ := ih hq
    rw [progress_ask q ho] at hp
    exact ⟨hc, hp⟩

end World

instance (r : Except Halt Unit) : Decidable (r = .ok ()) :=
  match r with
  | .ok () => isTrue rfl
  | .error _ => isFalse nofun

namespace State

def nextRun (s : State) : RunId := s.runs.start.1

theorem traced_initial {roots : Node Content → Prop} : initial.Traced roots where
  runs := rfl
  exist := .refl []
  nodes := fun _ h => absurd h List.not_mem_nil
  futures := fun _ h => absurd h List.not_mem_nil
  requests := fun _ h => absurd h List.not_mem_nil

end State

namespace Outcome

theorem ofViolations_eq_success {subject : Json} {vs : List Violation} :
    ofViolations subject vs = .success subject ↔ vs = [] := by
  cases vs <;> simp [ofViolations, Report.ofList?]

theorem exists_report (subject : Json) {vs : List Violation} (h : vs ≠ []) :
    ∃ report, ofViolations subject vs = .failure report ∧ report.toList = vs := by
  cases vs with
  | nil => exact absurd rfl h
  | cons v vs => exact ⟨⟨v :: vs, List.cons_ne_nil v vs⟩, rfl, rfl⟩

theorem ofViolations_toList (subject : Json) (report : Report) :
    ofViolations subject report.toList = .failure report := by
  obtain ⟨report', hr, hl⟩ := exists_report subject report.ne_nil
  rw [hr]
  exact congrArg failure (Report.ext hl)

theorem toList_of_failure {subject : Json} {vs : List Violation} {report : Report}
    (h : ofViolations subject vs = .failure report) : report.toList = vs := by
  cases vs with
  | nil => cases h
  | cons v vs =>
    cases h
    rfl

def returned : Outcome → Bool
  | success _ => true
  | failure _ => true
  | error _ => true
  | _ => false

theorem returned_ofViolations (subject : Json) (vs : List Violation) :
    (ofViolations subject vs).returned = true := by
  cases vs <;> rfl

end Outcome

namespace Validator

variable (v : Validator) (subject context : Json) (s : State)

/-- How the block of a run ends, and the state that it leaves. -/
def play : Except Halt Unit × State :=
  let opened := (v.openRun subject).run s
  (v.rules.execute v.library.nested context opened.1).run opened.2

def requests : List Request :=
  ((v.play subject context s).2.deeds.toList.drop (s.deeds.size + 1)).filterMap fun
    | .ask q => some q
    | _ => none

def found : Entries := ((v.play subject context s).2.runs.ledger s.nextRun).entries

theorem faithful_openRun {s : State} (h : s.Faithful []) :
    ((v.openRun subject).run s).2.Faithful [] := by
  have hw : ((v.openRun subject).run s).2.world = s.world.step .start := by
    simp only [State.world, ← World.after_concat]
    exact congrArg World.after (Array.toList_push ..)
  refine ⟨?_, ?_⟩
  · rw [hw, World.step, h.runs]
    rfl
  · rw [hw]
    exact h.exist

theorem faithful_closeRun {s : State} (h : s.Faithful []) (run : RunId) :
    ((v.closeRun run).run s).2.Faithful [] := by
  have hw : ((v.closeRun run).run s).2.world =
      s.world.step (.complete run v.configuration.defaultMessage) := by
    simp only [State.world, ← World.after_concat]
    exact congrArg World.after (Array.toList_push ..)
  refine ⟨?_, ?_⟩
  · rw [hw, World.step, h.runs]
    rfl
  · rw [hw]
    exact h.exist

variable {s}

section

variable {roots : Node Content → Prop}

theorem traced_openRun (h : s.Traced roots) : ((v.openRun subject).run s).2.Traced roots :=
  ⟨v.faithful_openRun subject h.toFaithful,
    h.toRooted.push (d := .start) (fun _ => nofun) rfl rfl⟩

theorem traced_closeRun (h : s.Traced roots) (run : RunId) :
    ((v.closeRun run).run s).2.Traced roots :=
  ⟨v.faithful_closeRun h.toFaithful run,
    h.toRooted.push (d := .complete run v.configuration.defaultMessage) (fun _ => nofun) rfl rfl⟩

theorem traced_play (h : s.Traced roots) (hr : roots ((v.openRun subject).run s).1) :
    ((v.openRun subject).run s).2.Leads (v.play subject context s).2 ∧
      (v.play subject context s).2.Traced roots := by
  have hn : ((v.openRun subject).run s).1.Rooted roots := ⟨_, hr, .root⟩
  obtain ⟨hl, ht, -⟩ := RuleSet.plain_execute v.library.plain_nested v.rules context hn
    _ (v.traced_openRun subject h) trivial
  exact ⟨hl, ht⟩

end

theorem play_spec (h : s.Faithful []) :
    (v.play subject context s).2.Faithful [] ∧
      (v.play subject context s).2.deeds.toList =
        s.deeds.toList ++ .start :: (v.requests subject context s).map .ask := by
  obtain ⟨⟨qs, hd⟩, ht⟩ := v.traced_play subject context h.traced trivial
  change (v.play subject context s).2.deeds.toList = (s.deeds.push .start).toList ++ _ at hd
  -- The deeds of the block are what is left when those before it are dropped.
  have hq : v.requests subject context s = qs := by
    have hn : s.deeds.size + 1 = (s.deeds.push .start).toList.length := by simp
    rw [requests, hd, hn, List.drop_left]
    simp [List.filterMap_map]
  refine ⟨ht.toFaithful, ?_⟩
  rw [hq, hd, Array.toList_push, List.append_assoc, List.singleton_append]

theorem mem_deeds_of_mem_requests {q : Request} (h : q ∈ v.requests subject context s) :
    .ask q ∈ (v.play subject context s).2.deeds.toList := by
  obtain ⟨d, hd, hq⟩ := List.mem_filterMap.mp h
  cases d with
  | ask r =>
    cases hq
    exact List.mem_of_mem_drop hd
  | start => cases hq
  | complete => cases hq

theorem world_play (h : s.Faithful []) :
    (v.play subject context s).2.world =
      ((v.requests subject context s).map Deed.ask).foldl World.step (s.world.step .start) := by
  rw [State.world, (v.play_spec subject context h).2, World.after_append]
  rfl

/-- While its block is executed a run stays open, and what it has found is what its requests come
to. -/
theorem progress_play (h : s.Faithful []) :
    ((v.play subject context s).2.runs.ledger s.nextRun).completed = false ∧
      (v.play subject context s).2.world.progress s.nextRun =
        Progress.after s.nextRun (v.requests subject context s) := by
  have hs : s.world.Sound := World.sound_after s.deeds.toList
  have hn : s.nextRun = s.world.runs.start.1 := by rw [h.runs, State.nextRun]
  have ho : ((s.world.step .start).runs.ledger s.nextRun).completed = false := by
    rw [World.step, h.runs, State.nextRun, Runs.ledger_start]
    rfl
  obtain ⟨hc, hp⟩ := World.progress_asks ho (v.requests subject context s)
  rw [← v.world_play subject context h] at hc hp
  rw [hn, World.progress_start hs.started, ← hn] at hp
  exact ⟨(v.play_spec subject context h).1.runs ▸ hc, hp⟩

theorem found_eq (h : s.Faithful []) :
    v.found subject context s =
      (Progress.after s.nextRun (v.requests subject context s)).entries := by
  rw [← (v.progress_play subject context h).2, found, ← (v.play_spec subject context h).1.runs]
  rfl

theorem run_run :
    (v.run subject context).run s =
      (v.endRun subject s.nextRun (v.play subject context s).1).run (v.play subject context s).2 :=
  rfl

def conclude (run : RunId) (r : Except Halt Unit × State) : Outcome :=
  ((v.endRun subject run r.1).run r.2).1

theorem conclude_ok (run : RunId) (u : Unit) (t : State) :
    v.conclude subject run (.ok u, t) =
      .ofViolations subject ((t.runs.ledger run).violations v.configuration.defaultMessage) := rfl

theorem conclude_congr (run : RunId) {r r' : Except Halt Unit × State} (h : r.1 = r'.1)
    (hr : r.2.runs = r'.2.runs) :
    v.conclude subject run r = v.conclude subject run r' := by
  obtain ⟨outcome, t⟩ := r
  obtain ⟨outcome', t'⟩ := r'
  obtain rfl : outcome = outcome' := h
  cases outcome with
  | ok u => rw [conclude_ok, conclude_ok, show t.runs = t'.runs from hr]
  | error halt => cases halt <;> rfl

theorem run_eq_conclude (s : State) :
    ((v.run subject context).run s).1 =
      v.conclude subject s.nextRun (v.play subject context s) := by
  rw [run_run, conclude]

theorem run_of_returned (h : (v.play subject context s).1 = .ok ()) :
    ((v.run subject context).run s).1 =
      .ofViolations subject
        ((v.found subject context s).map (·.toViolation v.configuration.defaultMessage)) := by
  rw [run_eq_conclude, conclude, h]
  rfl

theorem returned_of_failure {report : Report}
    (h : ((v.run subject context).run s).1 = .failure report) :
    (v.play subject context s).1 = .ok () := by
  rw [run_run] at h
  cases hr : (v.play subject context s).1 with
  | ok u => rfl
  | error halt =>
    rw [hr] at h
    cases halt <;> cases h

theorem run_leaves (s : State) :
    (((v.run subject context).run s).1.returned = true ∧ ((v.run subject context).run s).2 =
        ((v.closeRun s.nextRun).run (v.play subject context s).2).2) ∨
      ((v.run subject context).run s).1.returned = false ∧
        ((v.run subject context).run s).2 = (v.play subject context s).2 := by
  rw [run_run]
  cases (v.play subject context s).1 with
  | ok u => exact .inl ⟨Outcome.returned_ofViolations .., rfl⟩
  | error halt =>
    cases halt with
    | failed error => exact .inl ⟨rfl, rfl⟩
    | misused m => exact .inr ⟨rfl, rfl⟩
    | panicked text => exact .inr ⟨rfl, rfl⟩
    | abandoned => exact .inr ⟨rfl, rfl⟩

theorem traced_run {roots : Node Content → Prop} (h : s.Traced roots)
    (hr : roots ((v.openRun subject).run s).1) :
    ((v.run subject context).run s).2.Traced roots := by
  have ht := (v.traced_play subject context h hr).2
  rcases v.run_leaves subject context s with ⟨-, hl⟩ | ⟨-, hl⟩
  · exact hl ▸ v.traced_closeRun ht s.nextRun
  · exact hl ▸ ht

theorem faithful_run (h : s.Faithful []) : ((v.run subject context).run s).2.Faithful [] :=
  (v.traced_run subject context h.traced trivial).toFaithful

theorem deeds_run (h : s.Faithful []) :
    s.deeds.toList <+: ((v.run subject context).run s).2.deeds.toList := by
  have hp : s.deeds.toList <+: (v.play subject context s).2.deeds.toList := by
    rw [(v.play_spec subject context h).2]
    exact List.prefix_append ..
  rcases v.run_leaves subject context s with ⟨-, hl⟩ | ⟨-, hl⟩
  · have hd : ((v.run subject context).run s).2.deeds.toList =
        (v.play subject context s).2.deeds.toList ++
          [.complete s.nextRun v.configuration.defaultMessage] := by
      rw [hl]
      exact Array.toList_push ..
    rw [hd]
    exact hp.trans (List.prefix_append ..)
  · exact hl ▸ hp

end Validator

namespace SessionStep

theorem run_executeAlone (library : Library) (st : Statement) (s : State) :
    ∃ events, ((executeAlone library st).run s).2 =
      { ((st.execute library.nested none).run s).2 with events } := by
  change ∃ events, ((answerEnd ((st.execute library.nested none).run s).1).run
    ((st.execute library.nested none).run s).2).2 = _
  cases ((st.execute library.nested none).run s).1 with
  | ok u => exact ⟨_, rfl⟩
  | error halt => cases halt <;> exact ⟨_, rfl⟩

variable {roots : Node Content → Prop} {s : State}

theorem traced_executeAlone (library : Library) (st : Statement) (h : s.Traced roots) :
    s.Leads ((executeAlone library st).run s).2 ∧
      ((executeAlone library st).run s).2.Traced roots := by
  obtain ⟨hl, ht, -⟩ := Statement.plain_execute library.plain_nested none st s h trivial
  obtain ⟨events, he⟩ := run_executeAlone library st s
  rw [he]
  exact ⟨hl, ht.answering events⟩

theorem traced_outside (library : Library) (block : Block) (h : s.Traced roots) :
    s.Leads ((block.forM (executeAlone library)).run s).2 ∧
      ((block.forM (executeAlone library)).run s).2.Traced roots := by
  induction block generalizing s with
  | nil => exact ⟨.refl s, h⟩
  | cons st block ih =>
    obtain ⟨hl, ht⟩ := traced_executeAlone library st h
    obtain ⟨hl', ht'⟩ := ih ht
    exact ⟨hl.trans hl', ht'⟩

theorem traced_perform (step : SessionStep) (h : s.Traced roots)
    (hr : ∀ v subject context, step = .run v subject context →
      roots ((v.openRun subject).run s).1) : (step.perform.run s).2.Traced roots := by
  have hc : State.Traced roots { s with events := #[] } := h.answering #[]
  cases step with
  | run v subject context => exact v.traced_run subject context hc (hr v subject context rfl)
  | batch v subjects context => exact hc
  | outside library block => exact (traced_outside library block hc).2

theorem deeds_perform (step : SessionStep) (h : s.Faithful []) :
    s.deeds.toList <+: (step.perform.run s).2.deeds.toList := by
  have hc : State.Faithful { s with events := #[] } [] := h.answering #[]
  cases step with
  | run v subject context => exact v.deeds_run subject context hc
  | batch v subjects context => exact List.prefix_refl _
  | outside library block =>
    obtain ⟨⟨qs, hd⟩, -⟩ := traced_outside library block hc.traced
    exact ⟨qs.map .ask, hd.symm⟩

end SessionStep

namespace Session

def state (steps : List SessionStep) : State := ((steps.mapM SessionStep.perform).run .initial).2

theorem state_append (steps later : List SessionStep) :
    state (steps ++ later) = ((later.mapM SessionStep.perform).run (state steps)).2 := by
  rw [state, List.mapM_append]
  rfl

def Root (steps : List SessionStep) (root : Node Content) : Prop :=
  ∃ before v subject context after, steps = before ++ .run v subject context :: after ∧
    root = ((v.openRun subject).run (state before)).1

theorem Root.append {steps : List SessionStep} {root : Node Content} (h : Root steps root)
    (later : List SessionStep) : Root (steps ++ later) root := by
  obtain ⟨before, v, subject, context, after, rfl, rfl⟩ := h
  exact ⟨before, v, subject, context, after ++ later, by simp, rfl⟩

theorem root_last (steps : List SessionStep) (v : Validator) (subject context : Json) :
    Root (steps ++ [.run v subject context]) ((v.openRun subject).run (state steps)).1 :=
  ⟨steps, v, subject, context, [], rfl, rfl⟩

/-- The runs of a session are what its deeds have brought about, and every node in it was reached
from the root of one of its runs. -/
theorem traced_state (steps : List SessionStep) : (state steps).Traced (Root steps) := by
  induction steps using List.reverseRecOn with
  | nil => exact State.traced_initial
  | append_singleton steps step ih =>
    rw [state_append]
    refine step.traced_perform (ih.mono fun _ hr => hr.append [step]) ?_
    rintro v subject context rfl
    exact root_last steps v subject context

theorem faithful_state (steps : List SessionStep) : (state steps).Faithful [] :=
  (traced_state steps).toFaithful

theorem state_run (steps : List SessionStep) (v : Validator) (subject context : Json) :
    state (steps ++ [.run v subject context]) =
      ((v.run subject context).run { state steps with events := #[] }).2 :=
  state_append steps [.run v subject context]

theorem answers_append (steps later : List SessionStep) :
    answers steps <+: answers (steps ++ later) := by
  rw [answers, answers, List.mapM_append]
  exact List.prefix_append ..

theorem deeds_append (steps later : List SessionStep) :
    (state steps).deeds.toList <+: (state (steps ++ later)).deeds.toList := by
  induction later generalizing steps with
  | nil =>
    exact ⟨[], by rw [List.append_nil, List.append_nil]⟩
  | cons step later ih =>
    have hs : (state steps).deeds.toList <+: (state (steps ++ [step])).deeds.toList := by
      rw [state_append]
      exact step.deeds_perform (faithful_state steps)
    rw [List.append_cons]
    exact hs.trans (ih (steps ++ [step]))

end Session

end Vetting
