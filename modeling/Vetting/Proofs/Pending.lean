import Vetting.Proofs.Block.Sites
import Vetting.Proofs.Offers

/-! Which declarations are reported with the default message. Of every declaration there is one
entry without a message at most, and it is there as long as the constraint that was first found
unsatisfied has been given no message. That one owns the entry, and once the declaration has been
spoken for, it stays so. -/

namespace Vetting

namespace Progress

open Request

variable {run : RunId} {p : Progress} {qs before later : List Request} {q : Request}
  {c : Constraint} {e : Entry}

structure Awaits (p : Progress) (c : Constraint) : Prop where
  exist : c ∈ p.constraints
  satisfied : c.satisfied = false
  owned : c.owned = true
  message : c.message = none

structure Spoken (p : Progress) (e : Entry) : Prop where
  absent : e ∉ p.entries
  messaged : ∃ k ∈ p.entries, k.message ≠ none ∧ k.declaration = e.declaration

theorem mem_constraints_ask_of_ne (hc : c ∈ p.constraints)
    (hq : ∀ message, q ≠ .otherwise c message) : c ∈ (p.ask run q).constraints := by
  cases q with
  | declare n satisfied origin =>
    rw [ask]
    split
    · exact List.mem_cons_of_mem _ hc
    · exact hc
  | apply n r =>
    rw [ask]
    split
    · exact List.mem_cons_of_mem _ hc
    · exact hc
  | otherwise d message =>
    have hne : c ≠ d := by
      rintro rfl
      exact hq message rfl
    have he : c ∈ p.constraints.erase d := (List.mem_erase_of_ne hne).mpr hc
    rw [ask]
    split
    · split
      · exact he
      · exact List.mem_cons_of_mem _ he
    · exact hc
  | register n d =>
    rw [ask]
    split <;> exact hc
  | report n v =>
    rw [ask]
    split <;> exact hc

theorem Awaits.ask (h : p.Awaits c) (hq : ∀ message, q ≠ .otherwise c message) :
    (p.ask run q).Awaits c :=
  ⟨mem_constraints_ask_of_ne h.exist hq, h.satisfied, h.owned, h.message⟩

theorem Awaits.mem_entries (h : p.Awaits c) (hp : p.Sound) : c.entry ∈ p.entries :=
  hp.present c h.exist h.owned

theorem Awaits.count_eq (h : p.Awaits c) (hp : p.Sound) : p.constraints.count c = 1 := by
  obtain ⟨front, back, hs⟩ := List.append_of_mem h.exist
  have hx := hp.exclusive
  rw [hs, List.pairwise_append, List.pairwise_cons] at hx
  -- Nobody else owns this entry, so nobody else is like the constraint.
  have hb : c ∉ back := fun hb => hx.2.1.1 c hb h.owned h.owned rfl
  have hf : c ∉ front := fun hf => hx.2.2 c hf c List.mem_cons_self h.owned h.owned rfl
  rw [hs, List.count_append, List.count_cons_self, List.count_eq_zero_of_not_mem hf,
    List.count_eq_zero_of_not_mem hb]

theorem Awaits.give (h : p.Awaits c) (hp : p.Sound) (message : String) :
    (p.ask run (.otherwise c message)).Spoken c.entry := by
  have hk : c.keeps message = false := by simp [Constraint.keeps, h.satisfied, h.message]
  have hr : c.refuses message = false := by simp [Constraint.refuses, h.message]
  have hg : p.Gives (.otherwise c message) c message := ⟨rfl, h.exist, hk, hr⟩
  rw [hg.ask_eq, Constraint.messaged_of_not_keeps hk, h.owned]
  refine ⟨Entries.not_mem_attach_current hp.nodup (h.mem_entries hp) fun he => ?_,
    _, Entries.mem_attach_self .., Option.some_ne_none _, rfl⟩
  have hm : c.message = some message := congrArg Entry.message he
  rw [h.message] at hm
  cases hm

theorem Spoken.insert (h : p.Spoken e) (hm : e.message = none) (ho : e.origin ≠ none)
    (f : Entry) : (p.insert f).Spoken e := by
  obtain ⟨k, hk, hkm, hkd⟩ := h.messaged
  refine ⟨fun he => ?_, k, p.entries.subset_insert f hk, hkm, hkd⟩
  rcases Entries.mem_insert he with he' | rfl
  · exact h.absent he'
  · have hc : p.entries.Covers e := .inr ⟨hm, k, hk, hkm, hkd⟩
    rw [Progress.insert, Entries.insert_of_covers (.inl ho) hc] at he
    exact h.absent he

theorem Spoken.ask (h : p.Spoken e) (hm : e.message = none) (ho : e.origin ≠ none) :
    (p.ask run q).Spoken e := by
  have hc := p.change_ask run q
  suffices hs : Spoken ⟨(p.ask run q).entries, []⟩ e from ⟨hs.absent, hs.messaged⟩
  generalize (p.ask run q).entries = es at hc ⊢
  cases hc with
  | idle => exact ⟨h.absent, h.messaged⟩
  | @find f hf =>
    have hi := h.insert hm ho f
    exact ⟨hi.absent, hi.messaged⟩
  | @again c =>
    have hi := h.insert hm ho c.entry
    exact ⟨hi.absent, hi.messaged⟩
  | @give c message hg =>
    refine ⟨fun he => ?_, ?_⟩
    · rcases Entries.mem_of_mem_attach he with he | rfl
      · exact h.absent he
      · cases hm
    · -- The message may be replaced by another one, but it does not vanish.
      obtain ⟨k, hk, hkm, hkd⟩ := h.messaged
      by_cases hkc : k = c.entry
      · subst hkc
        exact ⟨_, Entries.mem_attach_self .., Option.some_ne_none _, hkd⟩
      · exact ⟨k, Entries.mem_attach_of_mem _ hk fun _ => hkc, hkm, hkd⟩

theorem Spoken.not_mem_constraints (h : p.Spoken c.entry) (hp : p.Sound) (ho : c.owned = true) :
    c ∉ p.constraints := fun hc => h.absent (hp.present c hc ho)

theorem mem_failures_of_mem_entries (he : e ∈ (after run qs).entries) (ho : e.origin ≠ none) :
    e.declaration ∈ (failures run qs).declarations := by
  rcases grounded_entries run qs e he with ⟨q, -, v, -, rfl⟩ | ⟨⟨q, hq, f, hf, hd⟩, -⟩
  · exact absurd rfl ho
  · have hm : f ∈ failures run qs := List.mem_filterMap.mpr ⟨q, hq, hf⟩
    exact hd ▸ Entries.mem_declarations_of_mem hm

structure Opens (run : RunId) (before : List Request) (q : Request) (c : Constraint) : Prop where
  made : (after run (before ++ [q])).constraints = c :: (after run before).constraints
  failure : q.failure? run = some c.entry
  first : c.entry.declaration ∉ (failures run before).declarations

theorem exists_opens (hf : q.failure? run = some e)
    (hn : e.declaration ∉ (failures run before).declarations) :
    ∃ c, Opens run before q c ∧ c.entry = e := by
  cases q with
  | declare n satisfied origin =>
    simp only [failure?] at hf
    split at hf
    · rename_i hr
      obtain ⟨hr, rfl⟩ := hr
      cases hf
      let c := (Constraint.declared false n.path run origin (after run before).entries).1
      refine ⟨c, ⟨?_, ?_, hn⟩, rfl⟩
      · rw [after_concat, ask, if_pos hr]
        rfl
      · simp [failure?, hr, c, Constraint.declared_false, Constraint.entry]
    · cases hf
  | apply n r =>
    simp only [failure?] at hf
    split at hf
    · rename_i hr
      cases hf
      let c := (Constraint.judged false n.path run r.name (r.complaint n.value)
        (after run before).entries).1
      have hc : c.entry = ⟨n.path, some (r.complaint n.value), some (.rule r.name)⟩ := by
        simp only [c, Constraint.judged_false, Constraint.entry]
      refine ⟨c, ⟨?_, ?_, hc ▸ hn⟩, hc⟩
      · rw [after_concat, ask, if_pos hr.1, hr.2]
        rfl
      · rw [hc]
        simp [failure?, hr]
    · cases hf
  | otherwise => cases hf
  | register => cases hf
  | report => cases hf

theorem Opens.not_covers (h : Opens run before q c) :
    ¬(after run before).entries.Covers { c.entry with message := none } := by
  intro hc
  obtain ⟨e, he, hd⟩ := Entries.mem_declarations.mp hc.mem_declarations
  have ho : e.origin ≠ none := (congrArg Prod.snd hd).trans_ne (Option.some_ne_none _)
  have hm := mem_failures_of_mem_entries he ho
  rw [hd] at hm
  exact h.first hm

theorem Opens.awaits (h : Opens run before q c) (hm : c.message = none) :
    (after run (before ++ [q])).Awaits c := by
  have hn := h.not_covers
  have hf := h.failure
  have hmade := h.made
  have hc : c ∈ (after run (before ++ [q])).constraints := hmade ▸ List.mem_cons_self
  suffices hs : c.satisfied = false ∧ c.owned = true from ⟨hc, hs.1, hs.2, hm⟩
  rw [after_concat] at hmade
  cases q with
  | declare n satisfied origin =>
    simp only [failure?] at hf
    split at hf
    · rename_i hr
      rw [ask, if_pos hr.1, hr.2, add, Constraint.declared_false] at hmade
      have hc := (List.cons.inj hmade).1
      subst hc
      exact ⟨rfl, congrArg Prod.fst (Entries.insert_of_not_covers hn)⟩
    · cases hf
  | apply n r =>
    simp only [failure?] at hf
    split at hf
    · have he : some (r.complaint n.value) = c.message :=
        congrArg Entry.message (Option.some.inj hf)
      rw [hm] at he
      cases he
    · cases hf
  | otherwise => cases hf
  | register => cases hf
  | report => cases hf

theorem Opens.spoken (h : Opens run before q c) (hm : c.message ≠ none) :
    (after run (before ++ [q])).Spoken { c.entry with message := none } := by
  have hn := h.not_covers
  have hc := (after run before).change_ask run q
  have hf : q.finding? run = some c.entry := by simp [finding?, h.failure]
  rw [after_concat]
  suffices hs : Spoken ⟨((after run before).ask run q).entries, []⟩ _ from
    ⟨hs.absent, hs.messaged⟩
  generalize ((after run before).ask run q).entries = es at hc ⊢
  cases hc with
  | idle hi => simp [hi] at hf
  | @find e he =>
    cases he.symm.trans hf
    refine ⟨fun hp => ?_, _, (Entries.covers_insert _ _ (.inr hm)).mem hm, hm, rfl⟩
    rcases Entries.mem_insert hp with hp | hp
    · exact hn (.inl hp)
    · exact hm (congrArg Entry.message hp).symm
  | again hi => simp [hi] at hf
  | give hg => simp [hg.finding? run] at hf

theorem Opens.awaits_after (h : Opens run before q c) (hm : c.message = none)
    (hl : ∀ message, .otherwise c message ∉ later) :
    (after run (before ++ q :: later)).Awaits c := by
  -- By the last request, which is about some other constraint.
  induction later using List.reverseRecOn with
  | nil => exact h.awaits hm
  | append_singleton later r ih =>
    have hs := List.append_assoc before (q :: later) [r]
    rw [List.cons_append] at hs
    rw [← hs, after_concat]
    refine (ih fun message hr => hl message (List.mem_append_left _ hr)).ask fun message hr => ?_
    exact hl message (hr ▸ List.mem_append_right later (List.mem_singleton_self r))

theorem Opens.spoken_after (h : Opens run before q c)
    (hl : c.message ≠ none ∨ ∃ message, .otherwise c message ∈ later) :
    (after run (before ++ q :: later)).Spoken { c.entry with message := none } := by
  induction later using List.reverseRecOn with
  | nil =>
    refine h.spoken (hl.resolve_right ?_)
    rintro ⟨message, hn⟩
    exact absurd hn List.not_mem_nil
  | append_singleton later r ih =>
    have hs := List.append_assoc before (q :: later) [r]
    rw [List.cons_append] at hs
    rw [← hs, after_concat]
    by_cases hp : c.message ≠ none ∨ ∃ message, .otherwise c message ∈ later
    · exact (ih hp).ask rfl (Option.some_ne_none _)
    · -- Nothing has been said before the last request, so it is the one that says something.
      obtain ⟨hm, hn⟩ := not_or.mp hp
      obtain ⟨message, hr⟩ := hl.resolve_left hm
      have hm : c.message = none := not_not.mp hm
      have he : r = .otherwise c message := by
        rcases List.mem_append.mp hr with hr | hr
        · exact absurd ⟨message, hr⟩ hn
        · exact (List.mem_singleton.mp hr).symm
      have hc : { c.entry with message := none } = c.entry := by
        rw [← hm]
        rfl
      rw [he, hc]
      exact (h.awaits_after hm fun message hr => hn ⟨message, hr⟩).give (sound_after _ _) message

/-- The constraint was the first unsatisfied one of its declaration when it was made; the requests
have been made since. -/
def First (run : RunId) (qs : List Request) (c : Constraint) (later : List Request) : Prop :=
  ∃ before q, qs = before ++ q :: later ∧ Opens run before q c

theorem First.concat (h : First run qs c later) (q : Request) :
    First run (qs ++ [q]) c (later ++ [q]) := by
  obtain ⟨before, r, rfl, ho⟩ := h
  exact ⟨before, r, by simp, ho⟩

theorem exists_first {d : Declaration} (h : d ∈ (failures run qs).declarations) :
    ∃ c later, First run qs c later ∧ c.entry.declaration = d := by
  induction qs using List.reverseRecOn with
  | nil => exact absurd h List.not_mem_nil
  | append_singleton qs q ih =>
    by_cases hd : d ∈ (failures run qs).declarations
    · obtain ⟨c, later, hf, hc⟩ := ih hd
      exact ⟨c, later ++ [q], hf.concat q, hc⟩
    · rw [failures_concat, Entries.declarations_append] at h
      obtain ⟨e, he, rfl⟩ := Entries.mem_declarations.mp ((List.mem_append.mp h).resolve_left hd)
      obtain ⟨c, ho, hc⟩ := exists_opens (Option.mem_toList.mp he) hd
      exact ⟨c, [], ⟨qs, q, rfl, ho⟩, congrArg Entry.declaration hc⟩

/-- A declaration has an entry without a message just when the first constraint of it that was found
unsatisfied was made without one, and no request has offered it any. -/
theorem mem_pending_iff (run : RunId) (qs : List Request) (path : Path) (origin : Origin) :
    ⟨path, none, some origin⟩ ∈ (after run qs).entries ↔
      ∃ c later, First run qs c later ∧ c.entry = ⟨path, none, some origin⟩ ∧
        ∀ message, .otherwise c message ∉ later := by
  constructor
  · intro h
    obtain ⟨c, later, hf, hd⟩ :=
      exists_first (mem_failures_of_mem_entries h (Option.some_ne_none origin))
    obtain ⟨before, q, rfl, ho⟩ := hf
    have he : { c.entry with message := none } = (⟨path, none, some origin⟩ : Entry) := by
      have hp : c.entry.path = path := congrArg Prod.fst hd
      have hg : c.entry.origin = some origin := congrArg Prod.snd hd
      change (⟨c.entry.path, none, c.entry.origin⟩ : Entry) = _
      rw [hp, hg]
    have hn : ¬(c.message ≠ none ∨ ∃ message, .otherwise c message ∈ later) := fun hl =>
      (ho.spoken_after hl).absent (he ▸ h)
    obtain ⟨hm, hl⟩ := not_or.mp hn
    refine ⟨c, later, ⟨before, q, rfl, ho⟩, ?_, fun message hr => hl ⟨message, hr⟩⟩
    rw [← he, ← not_not.mp hm]
    rfl
  · rintro ⟨c, later, ⟨before, q, rfl, ho⟩, he, hl⟩
    have hm : c.message = none := congrArg Entry.message he
    exact he ▸ (ho.awaits_after hm hl).mem_entries (sound_after _ _)

theorem length_pending_le (run : RunId) (qs : List Request) (path : Path) (origin : Origin) :
    ((after run qs).entries.filter
      fun e => e.path = path ∧ e.origin = some origin ∧ e.message = none).length ≤ 1 := by
  have hc : (after run qs).entries.filter
      (fun e => e.path = path ∧ e.origin = some origin ∧ e.message = none) =
        (after run qs).entries.filter (· == ⟨path, none, some origin⟩) := by
    refine List.filter_congr fun e _ => ?_
    obtain ⟨p, m, o⟩ := e
    simp [and_comm, Bool.beq_eq_decide_eq]
  rw [hc, ← List.count_eq_length_filter]
  exact List.nodup_iff_count_le_one.mp (sound_after run qs).nodup _

theorem First.unique (h : First run qs c later) (hm : c.message = none) :
    ((∀ message, .otherwise c message ∉ later) → (after run qs).constraints.count c = 1) ∧
      ((∃ message, .otherwise c message ∈ later) → c ∉ (after run qs).constraints) := by
  obtain ⟨before, q, rfl, ho⟩ := h
  have hs := sound_after run (before ++ q :: later)
  refine ⟨fun hl => (ho.awaits_after hm hl).count_eq hs, fun hl => ?_⟩
  have hp := ho.spoken_after (.inr hl)
  have he : { c.entry with message := none } = c.entry := by
    rw [← hm]
    rfl
  rw [he] at hp
  exact hp.not_mem_constraints hs (ho.awaits hm).owned

theorem mem_pending_otherwise_iff {path : Path} {origin : Origin} {message : String}
    (h : ∀ d later, First run qs d later → d.entry = ⟨path, none, some origin⟩ → c ≠ d) :
    ⟨path, none, some origin⟩ ∈ (after run (qs ++ [.otherwise c message])).entries ↔
      ⟨path, none, some origin⟩ ∈ (after run qs).entries := by
  rw [mem_pending_iff, mem_pending_iff]
  constructor
  · rintro ⟨d, later, ⟨before, q, hs, ho⟩, hd, hl⟩
    rcases List.eq_nil_or_concat' later with rfl | ⟨later, r, rfl⟩
    · -- A message is no declaration, so it was not the last request that made the constraint.
      obtain ⟨-, rfl⟩ := List.append_singleton_inj.mp hs
      cases ho.failure
    · rw [← List.cons_append, ← List.append_assoc] at hs
      obtain ⟨rfl, -⟩ := List.append_singleton_inj.mp hs
      exact ⟨d, later, ⟨before, q, rfl, ho⟩, hd,
        fun message hr => hl message (List.mem_append_left _ hr)⟩
  · rintro ⟨d, later, hf, hd, hl⟩
    refine ⟨d, _, hf.concat (.otherwise c message), hd, fun message' hr => ?_⟩
    rcases List.mem_append.mp hr with hr | hr
    · exact hl message' hr
    · cases List.mem_singleton.mp hr
      exact h c later hf hd rfl

theorem isSite_of_mem_pending (hq : ∀ q ∈ qs, q.Sited) {path : Path} {origin : Origin}
    (h : ⟨path, none, some origin⟩ ∈ (after run qs).entries) : origin.IsSite := by
  obtain ⟨c, later, ⟨before, q, rfl, ho⟩, hc, -⟩ := (mem_pending_iff run qs path origin).mp h
  have hf := ho.failure
  have hs : q.Sited := hq q (by simp)
  rw [hc] at hf
  cases q with
  | declare n satisfied origin' =>
    simp only [failure?] at hf
    split at hf
    · cases hf
      exact hs
    · cases hf
  | apply n r =>
    simp only [failure?] at hf
    split at hf <;> cases hf
  | otherwise => cases hf
  | register => cases hf
  | report => cases hf

end Progress

namespace Validator

open Progress

/-- When the default message is reported. A run that returns reports it for the entries that it has
found without a message. Of every declaration there is one such entry at most, and there is one just
when the first constraint of the declaration that was found unsatisfied was made without a message
and none has been offered to it since; that constraint can be told from all others as long as it
waits. At no moment does a message for another constraint bring such an entry or take it away, and
no rule ever leaves one. -/
theorem default_reported (steps : List SessionStep) (v : Validator) (subject context : Json)
    (h : (v.play subject context (Session.state steps)).1 = .ok ()) :
    let s := Session.state steps
    let run := s.nextRun
    let qs := v.requests subject context s
    let found := v.found subject context s
    ((v.run subject context).run s).1 =
        .ofViolations subject (found.map (·.toViolation v.configuration.defaultMessage)) ∧
      (∀ path origin,
        (found.filter
          fun e => e.path = path ∧ e.origin = some origin ∧ e.message = none).length ≤ 1 ∧
        (⟨path, none, some origin⟩ ∈ found ↔
          ∃ c later, First run qs c later ∧ c.entry = ⟨path, none, some origin⟩ ∧
            ∀ message, .otherwise c message ∉ later)) ∧
      (∀ moment, moment <+: qs → ∀ c later, First run moment c later → c.message = none →
        ((∀ message, .otherwise c message ∉ later) → (after run moment).constraints.count c = 1) ∧
          ((∃ message, .otherwise c message ∈ later) → c ∉ (after run moment).constraints)) ∧
      (∀ moment c message, moment ++ [.otherwise c message] <+: qs → ∀ path origin,
        (∀ d later, First run moment d later → d.entry = ⟨path, none, some origin⟩ → c ≠ d) →
          (⟨path, none, some origin⟩ ∈ (after run (moment ++ [.otherwise c message])).entries ↔
            ⟨path, none, some origin⟩ ∈ (after run moment).entries)) ∧
      ∀ path name, ⟨path, none, some (.rule name)⟩ ∉ found := by
  intro s run qs found
  have hf : found = (after run qs).entries :=
    v.found_eq subject context (Session.faithful_state steps)
  refine ⟨v.run_of_returned subject context h, fun path origin => ?_, ?_, ?_, ?_⟩
  · rw [hf]
    exact ⟨length_pending_le run qs path origin, mem_pending_iff run qs path origin⟩
  · exact fun moment _ c later hc hm => hc.unique hm
  · exact fun moment c message _ path origin hd => mem_pending_otherwise_iff hd
  · intro path name hm
    rw [hf] at hm
    obtain ⟨form, number, he⟩ := isSite_of_mem_pending (fun q hq =>
      v.sited_of_mem_requests subject context (Session.sited_state steps) hq) hm
    cases he

def halfSpoken : Validator :=
  ⟨⟨"root", false,
    [.constrain "root" (some "first") .always 0 (.constant false) false,
      .constrain "root" (some "second") .always 0 (.constant false) false,
      .otherwise "second" "Refused" .unwind]⟩, .standard, []⟩

theorem halfSpoken_reports_default :
    (halfSpoken.play .null .null (Session.state [])).1 = .ok () ∧
      ⟨.root, none, some (.site .always 0)⟩ ∈ halfSpoken.found .null .null (Session.state []) := by
  have h : (halfSpoken.play .null .null (Session.state [])).1 = .ok () := rfl
  refine ⟨h, ?_⟩
  have hd := (default_reported [] halfSpoken .null .null h).2.1 .root (.site .always 0)
  let first : Constraint := ⟨false, .root, none, false, .site .always 0, 0, true⟩
  let second : Constraint := { first with owned := false }
  let root : Node Content := ⟨.plain (.json .null), .root, 0⟩
  let declare : Request := .declare root false (.site .always 0)
  refine hd.2.mpr ⟨first, [declare, .otherwise second "Refused"], ⟨[], declare, rfl, ?_⟩, rfl, ?_⟩
  · exact ⟨rfl, rfl, List.not_mem_nil⟩
  · simp [declare, first, second]

end Validator

end Vetting
