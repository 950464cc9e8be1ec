import Vetting.Proofs.Block.Record
import Vetting.Proofs.Run.Findings

/-! The verdict of a run. A run fails just when something has been found; each finding is then
reported, and whatever is reported has been found: it is a violation that was reported, or it stands
for an unsatisfied constraint, with no message but those that were given to such constraints. -/

namespace Vetting

def Progress.Attaches (p : Progress) (run : RunId) (q : Request) (d : Declaration)
    (message : String) : Prop :=
  (∃ f, q.failure? run = some f ∧ f.declaration = d ∧ f.message = some message) ∨
    ∃ c, p.Gives q c message ∧ c.entry.declaration = d

namespace Request

def Attached (run : RunId) (qs : List Request) (d : Declaration) (message : String) : Prop :=
  ∃ before q, before ++ [q] <+: qs ∧ (Progress.after run before).Attaches run q d message

/-- The entry stands for an unsatisfied constraint, with no message or with one that was given to
such a constraint. -/
def Backed (run : RunId) (qs : List Request) (e : Entry) : Prop :=
  (∃ q ∈ qs, ∃ f, q.failure? run = some f ∧ f.declaration = e.declaration) ∧
    ∀ message, e.message = some message → Attached run qs e.declaration message

def Grounded (run : RunId) (qs : List Request) (e : Entry) : Prop :=
  (∃ q ∈ qs, ∃ v, q.violation? run = some v ∧ e = .ofViolation v) ∨ Backed run qs e

variable {run : RunId} {qs qs' : List Request}

theorem Attached.mono {d : Declaration} {message : String} (h : Attached run qs d message)
    (hp : qs <+: qs') : Attached run qs' d message := by
  obtain ⟨before, q, hq, ha⟩ := h
  exact ⟨before, q, hq.trans hp, ha⟩

theorem Backed.mono {e : Entry} (h : Backed run qs e) (hp : qs <+: qs') : Backed run qs' e := by
  obtain ⟨⟨q, hq, f, hf⟩, hm⟩ := h
  exact ⟨⟨q, hp.subset hq, f, hf⟩, fun message he => (hm message he).mono hp⟩

theorem Grounded.mono {e : Entry} (h : Grounded run qs e) (hp : qs <+: qs') :
    Grounded run qs' e := by
  rcases h with ⟨q, hq, v, hv⟩ | h
  · exact .inl ⟨q, hp.subset hq, v, hv⟩
  · exact .inr (h.mono hp)

theorem backed_of_failure? {q : Request} {e : Entry} (h : q.failure? run = some e) :
    Backed run (qs ++ [q]) e :=
  ⟨⟨q, by simp, e, h, rfl⟩, fun _ he =>
    ⟨qs, q, List.prefix_refl _, .inl ⟨e, h, rfl, he⟩⟩⟩

theorem Backed.give {q : Request} {c : Constraint} {message : String} (h : Backed run qs c.entry)
    (hg : (Progress.after run qs).Gives q c message) :
    Backed run (qs ++ [q]) { c.entry with message := some message } := by
  refine ⟨(h.mono (List.prefix_append qs [q])).1, fun message' he => ?_⟩
  cases he
  exact ⟨qs, q, List.prefix_refl _, .inr ⟨c, hg, rfl⟩⟩

end Request

namespace Progress

open Request

theorem backed_constraints (run : RunId) (qs : List Request) :
    ∀ c ∈ (after run qs).constraints, c.satisfied = false → Backed run qs c.entry := by
  -- By the last request, as constraints change hands with every message.
  induction qs using List.reverseRecOn with
  | nil => exact fun c hc => absurd hc List.not_mem_nil
  | append_singleton qs q ih =>
    intro d hd hu
    rw [after_concat] at hd
    rcases mem_constraints_ask hd hu with hd | hf | ⟨c, message, hg, he⟩
    · exact (ih d hd hu).mono (List.prefix_append qs [q])
    · exact backed_of_failure? hf
    · rw [he]
      exact (ih c hg.exist hg.satisfied).give hg

theorem grounded_entries (run : RunId) (qs : List Request) :
    ∀ e ∈ (after run qs).entries, Grounded run qs e := by
  induction qs using List.reverseRecOn with
  | nil => exact fun e he => absurd he List.not_mem_nil
  | append_singleton qs q ih =>
    have hp : qs <+: qs ++ [q] := List.prefix_append qs [q]
    intro e he
    rw [after_concat] at he
    have hc := (after run qs).change_ask run q
    generalize ((after run qs).ask run q).entries = es at hc he
    cases hc with
    | idle => exact (ih e he).mono hp
    | find hf =>
      rcases Entries.mem_insert he with he | rfl
      · exact (ih e he).mono hp
      · rcases finding?_cases hf with hf | ⟨v, hv, rfl⟩
        · exact .inr (backed_of_failure? hf)
        · exact .inl ⟨q, by simp, v, hv, rfl⟩
    | again _ _ hc hu =>
      -- A constraint that is registered again brings its entry, which its own making backs.
      rcases Entries.mem_insert he with he | rfl
      · exact (ih e he).mono hp
      · exact .inr ((backed_constraints run qs _ hc hu).mono hp)
    | give hg =>
      rcases Entries.mem_of_mem_attach he with he | rfl
      · exact (ih e he).mono hp
      · exact .inr ((backed_constraints run qs _ hg.exist hg.satisfied).give hg)

theorem mem_declarations_after {run : RunId} {qs : List Request} {q : Request} {f : Entry}
    (hq : q ∈ qs) (hf : q.finding? run = some f) :
    f.declaration ∈ (after run qs).entries.declarations := by
  induction qs using List.reverseRecOn with
  | nil => exact absurd hq List.not_mem_nil
  | append_singleton qs r ih =>
    rw [after_concat]
    rcases List.mem_append.mp hq with hq | hq
    · exact mem_declarations_ask (ih hq) run r
    · cases List.mem_singleton.mp hq
      exact mem_declarations_of_finding? hf

theorem entries_eq_nil_iff {run : RunId} {qs : List Request} :
    (after run qs).entries = [] ↔ ∀ q ∈ qs, q.finding? run = none := by
  constructor
  · intro h q hq
    by_contra hn
    obtain ⟨f, hf⟩ := Option.ne_none_iff_exists'.mp hn
    have hd := mem_declarations_after hq hf
    rw [h] at hd
    exact absurd hd List.not_mem_nil
  · intro h
    rw [List.eq_nil_iff_forall_not_mem]
    intro e he
    rcases grounded_entries run qs e he with ⟨q, hq, v, hv, -⟩ | ⟨⟨q, hq, f, hf, -⟩, -⟩
    · exact absurd hv (by simp [(finding?_eq_none.mp (h q hq)).2])
    · exact absurd hf (by simp [(finding?_eq_none.mp (h q hq)).1])

end Progress

namespace Validator

open Request

/-- A run whose block returns is a success just when its requests have found nothing. Otherwise it
is a failure, in whose report every unsatisfied constraint has an entry, and every entry has its
ground. -/
theorem verdict_of_returned (steps : List SessionStep) (v : Validator) (subject context : Json)
    (h : (v.play subject context (Session.state steps)).1 = .ok ()) :
    let s := Session.state steps
    let qs := v.requests subject context s
    let outcome := ((v.run subject context).run s).1
    (outcome = .success subject ↔
        ∀ q ∈ qs, q.failure? s.nextRun = none ∧ q.violation? s.nextRun = none) ∧
      (outcome ≠ .success subject →
        ∃ report, outcome = .failure report ∧
          (report.toList = (v.found subject context s).map fun e =>
            ⟨e.path, e.message.getD v.configuration.defaultMessage⟩) ∧
          (∀ q ∈ qs, ∀ f, q.failure? s.nextRun = some f →
            ∃ e ∈ v.found subject context s, e.path = f.path ∧ e.origin = f.origin) ∧
          ∀ e ∈ v.found subject context s, Grounded s.nextRun qs e) := by
  intro s qs outcome
  have ho : outcome = .ofViolations subject _ := v.run_of_returned subject context h
  have hf : v.found subject context s = (Progress.after s.nextRun qs).entries :=
    v.found_eq subject context (Session.faithful_state steps)
  have hs : outcome = .success subject ↔ v.found subject context s = [] := by
    rw [ho, Outcome.ofViolations_eq_success, List.map_eq_nil_iff]
  refine ⟨?_, fun hn => ?_⟩
  · simp only [hs, hf, Progress.entries_eq_nil_iff, finding?_eq_none]
  · obtain ⟨report, hr, hl⟩ := Outcome.exists_report subject
      (mt List.map_eq_nil_iff.mp (mt hs.mpr hn))
    refine ⟨report, ho.trans hr, hl, fun q hq f hqf => ?_, fun e he => ?_⟩
    · have hd : f.declaration ∈ (v.found subject context s).declarations := by
        rw [hf]
        exact Progress.mem_declarations_after hq (by simp [finding?, hqf])
      obtain ⟨e, he, hed⟩ := Entries.mem_declarations.mp hd
      exact ⟨e, he, congrArg Prod.fst hed, congrArg Prod.snd hed⟩
    · exact Progress.grounded_entries _ _ e (hf ▸ he)

def unsatisfiable : Validator :=
  ⟨⟨"root", false,
    [.constrain "root" none .always 0 (.constant false) false,
      .constrain "root" (some "never") .always 1 (.constant false) false,
      .otherwise "never" "Nothing will do" .unwind]⟩, .standard, []⟩

theorem unsatisfiable_fails :
    (unsatisfiable.play .null .null (Session.state [])).1 = .ok () ∧
      ∃ report, ((unsatisfiable.run .null .null).run (Session.state [])).1 = .failure report ∧
        report.toList = [⟨.root, "The value is invalid."⟩, ⟨.root, "Nothing will do"⟩] := by
  have h : (unsatisfiable.play .null .null (Session.state [])).1 = .ok () := rfl
  obtain ⟨hs, hf⟩ := verdict_of_returned [] unsatisfiable .null .null h
  have hn : ((unsatisfiable.run .null .null).run (Session.state [])).1 ≠ .success .null := by
    intro ho
    have hq := hs.mp ho (.declare ⟨.plain (.json .null), .root, 0⟩ false (.site .always 0))
      List.mem_cons_self
    exact absurd hq.1 (by decide)
  obtain ⟨report, hr, hl, -, -⟩ := hf hn
  refine ⟨h, report, hr, ?_⟩
  rw [hl]
  decide

end Validator

end Vetting
