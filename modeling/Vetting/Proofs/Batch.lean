import Mathlib.Data.List.FinRange
import Vetting.Proofs.Relocation

/-! Batches. A pool takes up the subjects of a batch in any order, each at most once, and may leave
off when a run has come to no verdict. Every run has a collection and names of its own, so each
comes to what it comes to in a session for itself, whenever it is executed and whatever was executed
before. -/

namespace Vetting

structure Schedule (n : Nat) where
  order : List (Fin n)
  once : order.Nodup

def Schedule.inOrder (n : Nat) : Schedule n := ⟨List.finRange n, List.nodup_finRange n⟩

/-- What may be collected from the runs that were executed: one without a verdict stops the batch,
and if there is none the outcomes of all subjects are put in their order. -/
inductive Collects {n : Nat} (executed : List (Fin n × Outcome)) : BatchOutcome → Prop where
  | all (outcome : Fin n → Outcome) : (∀ i, (i, outcome i) ∈ executed) →
    (∀ r ∈ executed, r.2.isVerdict = true) → Collects executed (.all (List.ofFn outcome))
  | stopped (i : Fin n) (outcome : Outcome) : (i, outcome) ∈ executed →
    outcome.isVerdict = false → Collects executed (.stopped outcome)

namespace Validator

variable (v : Validator) (subjects : List Json) (context : Json)

/-- A run among others that has its names for itself. -/
def runApart (subject : Json) : StateM State Outcome := do
  let s ← get
  set { s with scope := .empty }
  let outcome ← v.run subject context
  modify fun t => { t with scope := s.scope }
  return outcome

def work (order : List (Fin subjects.length)) :
    StateM State (List (Fin subjects.length × Outcome)) :=
  order.mapM fun i => return (i, ← v.runApart context subjects[i])

theorem runApart_eq (subject : Json) (s : State) :
    ((v.runApart context subject).run s).1 = v.validate subject context := by
  change ((v.run subject context).run { s with scope := .empty }).1 = _
  exact v.run_eq_validate subject context (v.selfContained_of_empty subject context rfl)

theorem work_eq (order : List (Fin subjects.length)) (s : State) :
    ((v.work subjects context order).run s).1 =
      order.map fun i => (i, v.validate subjects[i] context) := by
  -- Each run finds the session as the ones before have left it.
  induction order generalizing s with
  | nil => rfl
  | cons i order ih =>
    rw [work, List.mapM_cons]
    change (i, ((v.runApart context subjects[i]).run s).1) ::
      ((v.work subjects context order).run _).1 = _
    rw [runApart_eq, ih]
    rfl

theorem ofFn_validate :
    List.ofFn (fun i : Fin subjects.length => v.validate subjects[i] context) =
      subjects.map (v.validate · context) := by
  apply List.ext_getElem <;> simp

theorem collects_work_iff (order : List (Fin subjects.length)) (s : State)
    (result : BatchOutcome) :
    Collects ((v.work subjects context order).run s).1 result ↔
      (result = .all (subjects.map (v.validate · context)) ∧ (∀ i, i ∈ order) ∧
          ∀ subject ∈ subjects, (v.validate subject context).isVerdict = true) ∨
        ∃ i ∈ order, result = .stopped (v.validate subjects[i] context) ∧
          (v.validate subjects[i] context).isVerdict = false := by
  have hm : ∀ i outcome, (i, outcome) ∈ ((v.work subjects context order).run s).1 ↔
      i ∈ order ∧ outcome = v.validate subjects[i] context := by
    intro i outcome
    rw [work_eq, List.mem_map]
    constructor
    · rintro ⟨j, hj, he⟩
      cases he
      exact ⟨hj, rfl⟩
    · rintro ⟨hi, rfl⟩
      exact ⟨i, hi, rfl⟩
  constructor
  · intro h
    cases h with
    | all outcome ho hv =>
      have he : outcome = fun i => v.validate subjects[i] context :=
        funext fun i => ((hm i _).mp (ho i)).2
      subst he
      refine .inl ⟨congrArg _ (v.ofFn_validate subjects context), fun i => ((hm i _).mp (ho i)).1,
        fun subject hs => ?_⟩
      obtain ⟨i, hi, rfl⟩ := List.getElem_of_mem hs
      exact hv _ (ho ⟨i, hi⟩)
    | stopped i outcome ho hv =>
      obtain ⟨hi, rfl⟩ := (hm i outcome).mp ho
      exact .inr ⟨i, hi, rfl, hv⟩
  · rintro (⟨rfl, hi, hv⟩ | ⟨i, hi, rfl, hv⟩)
    · rw [← ofFn_validate]
      refine .all _ (fun i => (hm i _).mpr ⟨hi i, rfl⟩) ?_
      rintro ⟨i, outcome⟩ hr
      obtain ⟨-, rfl⟩ := (hm i outcome).mp hr
      exact hv subjects[i] (List.getElem_mem i.isLt)
    · exact .stopped i _ ((hm i _).mpr ⟨hi, rfl⟩) hv

def Batched (result : BatchOutcome) : Prop :=
  if ∀ subject ∈ subjects, (v.validate subject context).isVerdict = true then
    result = .all (subjects.map (v.validate · context))
  else
    ∃ subject ∈ subjects, result = .stopped (v.validate subject context) ∧
      (v.validate subject context).isVerdict = false

theorem batched_of_collects {order : List (Fin subjects.length)} {s : State}
    {result : BatchOutcome} (h : Collects ((v.work subjects context order).run s).1 result) :
    v.Batched subjects context result := by
  rw [Batched]
  rcases (v.collects_work_iff subjects context order s result).mp h with
    ⟨he, -, hv⟩ | ⟨i, -, he, hi⟩
  · rw [if_pos hv]
    exact he
  · have hs : subjects[i] ∈ subjects := List.getElem_mem i.isLt
    rw [if_neg fun hv => Bool.false_ne_true (hi.symm.trans (hv _ hs))]
    exact ⟨_, hs, he, hi⟩

theorem exists_collects {order : List (Fin subjects.length)} (h : ∀ i, i ∈ order) (s : State) :
    ∃ result, Collects ((v.work subjects context order).run s).1 result := by
  by_cases hv : ∀ subject ∈ subjects, (v.validate subject context).isVerdict = true
  · exact ⟨_, (v.collects_work_iff subjects context order s _).mpr (.inl ⟨rfl, h, hv⟩)⟩
  · simp only [not_forall] at hv
    obtain ⟨subject, hs, hn⟩ := hv
    obtain ⟨i, hi, rfl⟩ := List.getElem_of_mem hs
    have he := v.collects_work_iff subjects context order s
    exact ⟨_, (he _).mpr (.inr ⟨⟨i, hi⟩, h _, rfl, by simpa using hn⟩)⟩

theorem collects_batch (s : State) :
    Collects ((v.work subjects context (Schedule.inOrder subjects.length).order).run s).1
      (v.batch subjects context) := by
  have hi : ∀ i, i ∈ (Schedule.inOrder subjects.length).order := List.mem_finRange
  rw [collects_work_iff, batch]
  cases hf : (subjects.map (v.validate · context)).find? (!·.isVerdict) with
  | none =>
    refine .inl ⟨rfl, hi, fun subject hs => ?_⟩
    simpa using List.find?_eq_none.mp hf _ (List.mem_map_of_mem hs)
  | some outcome =>
    obtain ⟨subject, hs, rfl⟩ := List.mem_map.mp (List.mem_of_find?_eq_some hf)
    obtain ⟨i, hl, rfl⟩ := List.getElem_of_mem hs
    exact .inr ⟨⟨i, hl⟩, hi _, rfl, by simpa using List.find?_some hf⟩

theorem map_ofFn_permuted (σ : Equiv.Perm (Fin subjects.length)) :
    (List.ofFn fun i => subjects[σ i]).map (v.validate · context) =
      List.ofFn fun i => v.validate subjects[σ i] context := List.map_ofFn ..

theorem mem_ofFn_permuted (σ : Equiv.Perm (Fin subjects.length)) {subject : Json} :
    subject ∈ List.ofFn (fun i => subjects[σ i]) ↔ subject ∈ subjects := by
  rw [List.mem_ofFn]
  constructor
  · rintro ⟨i, rfl⟩
    exact List.getElem_mem _
  · intro h
    obtain ⟨i, hi, rfl⟩ := List.getElem_of_mem h
    exact ⟨σ.symm ⟨i, hi⟩, by simp⟩

theorem batched_permuted_iff (σ : Equiv.Perm (Fin subjects.length)) (result : BatchOutcome) :
    v.Batched (List.ofFn fun i => subjects[σ i]) context result ↔
      if ∀ subject ∈ subjects, (v.validate subject context).isVerdict = true then
        result = .all (List.ofFn fun i => v.validate subjects[σ i] context)
      else v.Batched subjects context result := by
  simp only [Batched, map_ofFn_permuted, mem_ofFn_permuted]
  split <;> rfl

/-- A batch is the independent runs of its subjects. Whatever the order in which a pool takes the
subjects up, wherever it leaves off and whatever the session has seen before, it collects what
`validate` says of each, in their order; or if one comes to no verdict, what `validate` says of
such a one. It does collect something if it takes up all, `batch` is what it collects in their own
order, and subjects in another order have their outcomes in that order. -/
theorem batch_independent (s : State) :
    (∀ (schedule : Schedule subjects.length) (result : BatchOutcome),
      Collects ((v.work subjects context schedule.order).run s).1 result →
        v.Batched subjects context result) ∧
    (∀ schedule : Schedule subjects.length, (∀ i, i ∈ schedule.order) →
      ∃ result, Collects ((v.work subjects context schedule.order).run s).1 result) ∧
    Collects ((v.work subjects context (Schedule.inOrder subjects.length).order).run s).1
      (v.batch subjects context) ∧
    ∀ σ : Equiv.Perm (Fin subjects.length),
      let reordered := List.ofFn fun i => subjects[σ i]
      ∀ (schedule : Schedule reordered.length) (result : BatchOutcome),
        Collects ((v.work reordered context schedule.order).run s).1 result →
          if ∀ subject ∈ subjects, (v.validate subject context).isVerdict = true then
            result = .all (List.ofFn fun i => v.validate subjects[σ i] context)
          else v.Batched subjects context result := by
  refine ⟨fun schedule result => v.batched_of_collects subjects context,
    fun schedule hi => v.exists_collects subjects context hi s,
    v.collects_batch subjects context s, ?_⟩
  intro σ reordered schedule result h
  exact (v.batched_permuted_iff subjects context σ result).mp
    (v.batched_of_collects reordered context h)

def superstitious : Validator :=
  ⟨⟨"root", false,
    [.constrain "root" (some "lucky") .always 0 (.equalTo (.text "seven")) false,
      .derive "root" "feared" (.constant none ⟨.json, false⟩ (some (.text "thirteen"))),
      .branch (.sameNodes "root" "feared") [.fail "unlucky"] []]⟩, .standard, []⟩

theorem superstitious_batched :
    let two : Schedule 2 := ⟨[1, 0], by decide⟩
    let refused : Outcome := .failure ⟨[⟨.root, "The value is invalid."⟩], by simp⟩
    (∀ result,
      Collects ((superstitious.work [.text "seven", .text "one"] .null two.order).run .initial).1
        result → result = .all [.success (.text "seven"), refused]) ∧
      ∀ result,
        Collects ((superstitious.work [.text "seven", .text "thirteen"] .null two.order).run
          .initial).1 result → result = .stopped (.error "unlucky") := by
  intro two refused
  refine ⟨fun result h => ?_, fun result h => ?_⟩
  · have hb := (superstitious.batch_independent [.text "seven", .text "one"] .null .initial).1
      two result h
    exact hb
  · have hb := (superstitious.batch_independent [.text "seven", .text "thirteen"] .null .initial).1
      two result h
    obtain ⟨subject, hs, rfl, hv⟩ := hb
    rcases List.mem_pair.mp hs with rfl | rfl
    · cases hv
    · rfl

end Validator

end Vetting
