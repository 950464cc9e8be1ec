import Vetting.Proofs.Run.Ownership

/-! What the requests of a run find: the constraints that are not satisfied and the violations that
are reported. A finding is taken up by the collection where it is made; besides, only registering a
constraint once more and giving a message change the collection. -/

namespace Vetting

namespace Request

def failure? (run : RunId) : Request → Option Entry
  | .declare n satisfied origin =>
    if n.run = run ∧ satisfied = false then some ⟨n.path, none, some origin⟩ else none
  | .apply n r =>
    if n.run = run ∧ r.passes n.value = false then
      some ⟨n.path, some (r.complaint n.value), some (.rule r.name)⟩
    else none
  | _ => none

def violation? (run : RunId) : Request → Option Violation
  | .report n v => if n.run = run then some v else none
  | _ => none

def finding? (run : RunId) (q : Request) : Option Entry :=
  (q.failure? run).or ((q.violation? run).map .ofViolation)

section

variable (run : RunId) (n : Node Content)

theorem finding?_declare (satisfied : Bool) (origin : Origin) :
    finding? run (.declare n satisfied origin) =
      if n.run = run ∧ satisfied = false then some ⟨n.path, none, some origin⟩ else none := by
  simp [finding?, failure?, violation?]

theorem finding?_apply (r : Rule) :
    finding? run (.apply n r) =
      if n.run = run ∧ r.passes n.value = false then
        some ⟨n.path, some (r.complaint n.value), some (.rule r.name)⟩
      else none := by
  simp [finding?, failure?, violation?]

theorem finding?_report (v : Violation) :
    finding? run (.report n v) = if n.run = run then some (.ofViolation v) else none := by
  simp only [finding?, failure?, violation?, Option.none_or]
  split <;> rfl

end

theorem finding?_eq_none {run : RunId} {q : Request} :
    q.finding? run = none ↔ q.failure? run = none ∧ q.violation? run = none := by
  simp [finding?]

theorem origin_of_failure? {run : RunId} {q : Request} {e : Entry} (h : q.failure? run = some e) :
    e.origin ≠ none := by
  unfold failure? at h
  split at h
  · split at h
    · cases h
      exact Option.some_ne_none _
    · cases h
  · split at h
    · cases h
      exact Option.some_ne_none _
    · cases h
  · cases h

theorem finding?_cases {run : RunId} {q : Request} {e : Entry} (h : q.finding? run = some e) :
    q.failure? run = some e ∨ ∃ v, q.violation? run = some v ∧ e = .ofViolation v := by
  rcases Option.or_eq_some_iff.mp h with h | ⟨_, h⟩
  · exact .inl h
  · obtain ⟨v, hv, he⟩ := Option.map_eq_some_iff.mp h
    exact .inr ⟨v, hv, he.symm⟩

theorem labelled_of_finding? {run : RunId} {q : Request} {e : Entry} (h : q.finding? run = some e) :
    e.origin ≠ none ∨ e.message ≠ none := by
  rcases finding?_cases h with h | ⟨v, -, rfl⟩
  · exact .inl (origin_of_failure? h)
  · exact .inr (Option.some_ne_none _)

def findings (run : RunId) (qs : List Request) : Entries := qs.filterMap (finding? run)

theorem findings_concat (run : RunId) (qs : List Request) (q : Request) :
    findings run (qs ++ [q]) = findings run qs ++ (q.finding? run).toList := by
  cases h : q.finding? run <;> simp [findings, h]

end Request

namespace Progress

inductive Change (run : RunId) (p : Progress) (q : Request) : Entries → Prop where
  | idle : q.finding? run = none → (∀ c message, ¬p.Gives q c message) → Change run p q p.entries
  | find {e : Entry} : q.finding? run = some e → Change run p q (p.entries.insert e).2
  | again {c : Constraint} : q.finding? run = none → (∀ c message, ¬p.Gives q c message) →
    c ∈ p.constraints → c.satisfied = false → Change run p q (p.entries.insert c.entry).2
  | give {c : Constraint} {message : String} : p.Gives q c message →
    Change run p q (p.entries.attach c.entry c.owned { c.entry with message := some message }).2

theorem not_gives {p : Progress} {q : Request} (h : ∀ c message, q ≠ .otherwise c message)
    (c : Constraint) (message : String) : ¬p.Gives q c message := fun hg => h c message hg.asked

theorem change_ask (p : Progress) (run : RunId) (q : Request) :
    p.Change run q (p.ask run q).entries := by
  cases q with
  | declare n satisfied origin =>
    have hf := Request.finding?_declare run n satisfied origin
    rw [ask]
    by_cases hr : n.run = run
    · rw [if_pos hr]
      cases satisfied with
      | true => exact .idle (by simp [hf]) (not_gives (by simp))
      | false => exact .find (by simp [hf, hr])
    · rw [if_neg hr]
      exact .idle (by simp [hf, hr]) (not_gives (by simp))
  | apply n r =>
    have hf := Request.finding?_apply run n r
    rw [ask]
    by_cases hr : n.run = run
    · rw [if_pos hr]
      cases hs : r.passes n.value with
      | true => exact .idle (by simp [hf, hs]) (not_gives (by simp))
      | false =>
        rw [Constraint.judged_false]
        exact .find (by simp [hf, hr, hs])
    · rw [if_neg hr]
      exact .idle (by simp [hf, hr]) (not_gives (by simp))
  | otherwise c message =>
    by_cases hg : p.Gives (.otherwise c message) c message
    · rw [hg.ask_eq, Constraint.messaged_of_not_keeps hg.keeps]
      exact .give hg
    · rw [(ask_otherwise_of_not_gives hg run).1]
      refine .idle rfl fun c' message' hg' => ?_
      cases hg'.asked
      exact hg hg'
  | register n c =>
    rw [ask]
    split
    · rename_i hc
      exact .again rfl (not_gives (by simp)) hc.2.1 hc.2.2
    · exact .idle rfl (not_gives (by simp))
  | report n v =>
    have hf := Request.finding?_report run n v
    rw [ask]
    by_cases hr : n.run = run
    · rw [if_pos hr]
      exact .find (by simp [hf, hr])
    · rw [if_neg hr]
      exact .idle (by simp [hf, hr]) (not_gives (by simp))

theorem mem_constraints_ask {p : Progress} {run : RunId} {q : Request} {d : Constraint}
    (hd : d ∈ (p.ask run q).constraints) (hu : d.satisfied = false) :
    d ∈ p.constraints ∨ q.failure? run = some d.entry ∨
      ∃ c message, p.Gives q c message ∧ d.entry = { c.entry with message := some message } := by
  cases q with
  | declare n satisfied origin =>
    rw [ask] at hd
    split at hd
    · rename_i hr
      rcases List.mem_cons.mp hd with rfl | hd
      · cases satisfied with
        | true => cases hu
        | false =>
          rw [Constraint.declared_false]
          exact .inr (.inl (by simp [Request.failure?, hr, Constraint.entry]))
      · exact .inl hd
    · exact .inl hd
  | apply n r =>
    rw [ask] at hd
    split at hd
    · rename_i hr
      rcases List.mem_cons.mp hd with rfl | hd
      · cases hs : r.passes n.value with
        | true =>
          rw [hs, Constraint.judged_true] at hu
          cases hu
        | false =>
          rw [Constraint.judged_false]
          exact .inr (.inl (by simp [Request.failure?, hr, hs, Constraint.entry]))
      · exact .inl hd
    · exact .inl hd
  | otherwise c message =>
    by_cases hg : p.Gives (.otherwise c message) c message
    · rw [hg.ask_eq, Constraint.messaged_of_not_keeps hg.keeps] at hd
      rcases List.mem_cons.mp hd with rfl | hd
      · exact .inr (.inr ⟨c, message, hg, rfl⟩)
      · exact .inl (List.mem_of_mem_erase hd)
    · exact .inl ((ask_otherwise_of_not_gives hg run).2 hd)
  | register n c =>
    rw [ask] at hd
    split at hd <;> exact .inl hd
  | report n v =>
    rw [ask] at hd
    split at hd <;> exact .inl hd

theorem Gives.finding? {p : Progress} {q : Request} {c : Constraint} {message : String}
    (h : p.Gives q c message) (run : RunId) : q.finding? run = none := by
  rw [h.asked]
  rfl

theorem mem_declarations_ask {p : Progress} {d : Declaration} (h : d ∈ p.entries.declarations)
    (run : RunId) (q : Request) : d ∈ (p.ask run q).entries.declarations := by
  have hc := p.change_ask run q
  generalize (p.ask run q).entries = es at hc ⊢
  cases hc with
  | idle => exact h
  | find => exact List.map_subset _ (p.entries.subset_insert _) h
  | again => exact List.map_subset _ (p.entries.subset_insert _) h
  | give => exact Entries.mem_declarations_attach _ rfl h

theorem mem_declarations_of_finding? {p : Progress} {run : RunId} {q : Request} {e : Entry}
    (h : q.finding? run = some e) : e.declaration ∈ (p.ask run q).entries.declarations := by
  have hc := p.change_ask run q
  generalize (p.ask run q).entries = es at hc ⊢
  cases hc with
  | idle hn => simp [hn] at h
  | find hs =>
    cases hs.symm.trans h
    exact (p.entries.covers_insert e (Request.labelled_of_finding? h)).mem_declarations
  | again hn => simp [hn] at h
  | give hg => simp [hg.finding? run] at h

def Withdraws (p : Progress) (q : Request) (e : Entry) : Prop :=
  ∃ c message, p.Gives q c message ∧ c.owned = true ∧ c.entry = e

theorem mem_ask_of_mem {p : Progress} {q : Request} {e : Entry} (h : e ∈ p.entries)
    (hw : ¬p.Withdraws q e) (run : RunId) : e ∈ (p.ask run q).entries := by
  have hc := p.change_ask run q
  generalize (p.ask run q).entries = es at hc ⊢
  cases hc with
  | idle => exact h
  | find => exact p.entries.subset_insert _ h
  | again => exact p.entries.subset_insert _ h
  | give hg => exact Entries.mem_attach_of_mem _ h fun ho he => hw ⟨_, _, hg, ho, he.symm⟩

theorem Sound.not_mem_ask {p : Progress} {q : Request} {e : Entry} (hs : p.Sound)
    (hw : p.Withdraws q e) (run : RunId) : e ∉ (p.ask run q).entries := by
  obtain ⟨c, message, hg, ho, rfl⟩ := hw
  rw [hg.ask_eq, Constraint.messaged_of_not_keeps hg.keeps, ho]
  exact Entries.not_mem_attach_current hs.nodup (hs.present c hg.exist ho)
    (Constraint.entry_ne_of_not_keeps hg.keeps).symm

end Progress

end Vetting
