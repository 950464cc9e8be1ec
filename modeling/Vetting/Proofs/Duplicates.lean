import Vetting.Proofs.Block.Record
import Vetting.Proofs.Run.Findings

/-! Duplicates in a report. A collection holds no entry twice, but an entry without a message comes
to the default text only when its run is completed. It is then a duplicate just when that text has
been given, as a message, to its declaration besides. -/

namespace Vetting

def Entry.resolve (default : String) (e : Entry) : Path × String × Option Origin :=
  (e.path, e.message.getD default, e.origin)

namespace Entries

def Doubled (es : Entries) (default : String) : Prop :=
  ∃ e ∈ es, e.message = none ∧ { e with message := some default } ∈ es

theorem eq_of_resolve {default : String} {e f : Entry} (h : e.resolve default = f.resolve default)
    (he : e.message = none) (hf : f.message ≠ none) : f = { e with message := some default } := by
  obtain ⟨message, hm⟩ := Option.ne_none_iff_exists'.mp hf
  obtain ⟨path, messageOfF, origin⟩ := f
  simp only [Entry.resolve, he, Option.getD_none, Prod.mk.injEq] at h hm ⊢
  subst hm
  obtain ⟨rfl, rfl, rfl⟩ := h
  rfl

theorem nodup_resolve_iff {es : Entries} (hn : es.Nodup) (default : String) :
    (es.map (Entry.resolve default)).Nodup ↔ ¬es.Doubled default := by
  rw [List.nodup_map_iff_inj_on hn]
  constructor
  · rintro h ⟨e, he, hm, hd⟩
    have hr : e.resolve default = ({ e with message := some default } : Entry).resolve default := by
      simp [Entry.resolve, hm]
    have hee := h e he _ hd hr
    exact absurd (congrArg Entry.message hee) (by simp [hm])
  · intro h e he f hf hr
    by_cases hem : e.message = none
    · by_cases hfm : f.message = none
      · obtain ⟨path, _, origin⟩ := e
        obtain ⟨path', _, origin'⟩ := f
        simp_all [Entry.resolve]
      · exact absurd ⟨e, he, hem, eq_of_resolve hr hem hfm ▸ hf⟩ h
    · by_cases hfm : f.message = none
      · exact absurd ⟨f, hf, hfm, eq_of_resolve hr.symm hfm hem ▸ he⟩ h
      · obtain ⟨path, _ | message, origin⟩ := e
        · exact absurd rfl hem
        · obtain ⟨path', _ | message', origin'⟩ := f
          · exact absurd rfl hfm
          · simp_all [Entry.resolve]

end Entries

namespace Progress

variable {p : Progress} {run : RunId} {q : Request}

inductive Brings (p : Progress) (run : RunId) (q : Request) : Entry → Prop where
  | find {e : Entry} : q.finding? run = some e → Brings p run q e
  | again {n : Node Content} {c : Constraint} : q = .register n c → n.run = run →
    c ∈ p.constraints → c.satisfied = false → Brings p run q c.entry
  | give {c : Constraint} {message : String} : p.Gives q c message →
    Brings p run q { c.entry with message := some message }

/-- The request brings the default text, as a message, to a declaration that keeps an entry without
one. -/
def Doubles (p : Progress) (run : RunId) (default : String) (q : Request) : Prop :=
  ∃ e ∈ p.entries, e.message = none ∧ ¬p.Withdraws q e ∧
    p.Brings run q { e with message := some default }

theorem Brings.mem {e : Entry} (h : p.Brings run q e) (hm : e.message ≠ none) :
    e ∈ (p.ask run q).entries := by
  cases h with
  | find hf =>
    have hc := p.change_ask run q
    generalize (p.ask run q).entries = es at hc ⊢
    cases hc with
    | idle hn => simp [hn] at hf
    | find hs =>
      cases hs.symm.trans hf
      exact (p.entries.covers_insert e (.inr hm)).mem hm
    | again hn => simp [hn] at hf
    | give hg => simp [hg.finding? run] at hf
  | again hq hr hc hu =>
    rw [hq, ask, if_pos ⟨hr, hc, hu⟩]
    exact (p.entries.covers_insert _ (.inr hm)).mem hm
  | give hg =>
    rw [hg.ask_eq, Constraint.messaged_of_not_keeps hg.keeps]
    exact Entries.mem_attach_self ..

theorem Brings.eq {e f : Entry} (he : p.Brings run q e) (hf : p.Brings run q f) : e = f := by
  cases he with
  | find he =>
    cases hf with
    | find hf => exact Option.some.inj (he.symm.trans hf)
    | again hq => simp [hq, Request.finding?, Request.failure?, Request.violation?] at he
    | give hg => simp [hg.finding? run] at he
  | again hq =>
    subst hq
    cases hf with
    | find hf => simp [Request.finding?, Request.failure?, Request.violation?] at hf
    | again hq =>
      cases hq
      rfl
    | give hg => cases hg.asked
  | give hg =>
    cases hf with
    | find hf => simp [hg.finding? run] at hf
    | again hq => cases hg.asked.symm.trans hq
    | give hg' =>
      cases hg.asked.symm.trans hg'.asked
      rfl

theorem brings_of_mem_ask {e : Entry} (h : e ∈ (p.ask run q).entries) :
    e ∈ p.entries ∨ p.Brings run q e := by
  cases q with
  | declare n satisfied origin =>
    rw [ask] at h
    split at h
    · rename_i hr
      cases satisfied with
      | true => exact .inl h
      | false =>
        refine (Entries.mem_insert h).imp_right ?_
        rintro rfl
        exact .find (by simp [Request.finding?_declare, hr])
    · exact .inl h
  | apply n r =>
    rw [ask] at h
    split at h
    · rename_i hr
      cases hs : r.passes n.value with
      | true =>
        rw [hs, Constraint.judged_true] at h
        exact .inl h
      | false =>
        rw [hs, Constraint.judged_false] at h
        refine (Entries.mem_insert h).imp_right ?_
        rintro rfl
        exact .find (by simp [Request.finding?_apply, hr, hs])
    · exact .inl h
  | otherwise c message =>
    by_cases hg : p.Gives (.otherwise c message) c message
    · rw [hg.ask_eq, Constraint.messaged_of_not_keeps hg.keeps] at h
      refine (Entries.mem_of_mem_attach h).imp_right ?_
      rintro rfl
      exact .give hg
    · rw [(ask_otherwise_of_not_gives hg run).1] at h
      exact .inl h
  | register n c =>
    rw [ask] at h
    split at h
    · rename_i hc
      refine (Entries.mem_insert h).imp_right ?_
      rintro rfl
      exact .again rfl hc.1 hc.2.1 hc.2.2
    · exact .inl h
  | report n v =>
    rw [ask] at h
    split at h
    · rename_i hr
      refine (Entries.mem_insert h).imp_right ?_
      rintro rfl
      exact .find (by simp [Request.finding?_report, hr])
    · exact .inl h

theorem mem_of_mem_ask {e : Entry} (hm : e.message = none) (hc : p.entries.Covers e)
    (h : e ∈ (p.ask run q).entries) : e ∈ p.entries := by
  have hch := p.change_ask run q
  generalize (p.ask run q).entries = es at hch h
  cases hch with
  | idle => exact h
  | find hf =>
    rcases Entries.mem_insert h with h | rfl
    · exact h
    · rwa [Entries.insert_of_covers (Request.labelled_of_finding? hf) hc] at h
  | again =>
    rcases Entries.mem_insert h with h | rfl
    · exact h
    · rwa [Entries.insert_of_covers (.inl (Option.some_ne_none _)) hc] at h
  | give =>
    rcases Entries.mem_of_mem_attach h with h | rfl
    · exact h
    · exact absurd hm (Option.some_ne_none _)

theorem Sound.doubled_ask_iff (hs : p.Sound) {default : String} (hd : ¬p.entries.Doubled default)
    (run : RunId) (q : Request) :
    (p.ask run q).entries.Doubled default ↔ p.Doubles run default q := by
  constructor
  · rintro ⟨e, he, hm, hx⟩
    have hw : ¬p.Withdraws q e := fun hw => hs.not_mem_ask hw run he
    rcases brings_of_mem_ask hx with hx | hb
    · have hc : p.entries.Covers e := .inr ⟨hm, _, hx, Option.some_ne_none _, rfl⟩
      exact absurd ⟨e, mem_of_mem_ask hm hc he, hm, hx⟩ hd
    · refine ⟨e, ?_, hm, hw, hb⟩
      -- The request brings one entry at most, so the one without a message was there.
      refine (brings_of_mem_ask he).resolve_right fun hb' => ?_
      exact absurd (congrArg Entry.message (hb'.eq hb)) (by simp [hm])
  · rintro ⟨e, he, hm, hw, hb⟩
    exact ⟨e, mem_ask_of_mem he hw run, hm, hb.mem (Option.some_ne_none _)⟩

theorem nodup_kept_iff (run : RunId) (default : String) (qs : List Request) :
    (∀ moment, moment <+: qs →
        ((after run moment).entries.map (Entry.resolve default)).Nodup) ↔
      ∀ moment q, moment ++ [q] <+: qs → ¬(after run moment).Doubles run default q := by
  refine forall_prefix_iff
    (P := fun moment => ((after run moment).entries.map (Entry.resolve default)).Nodup)
    List.nodup_nil (fun moment q hm => ?_) qs
  have hs := sound_after run moment
  rw [Entries.nodup_resolve_iff hs.nodup] at hm
  rw [Entries.nodup_resolve_iff (sound_after run _).nodup, after_concat,
    hs.doubled_ask_iff hm run q]

end Progress

namespace Validator

/-- A report lists a place, a message and a declaring place twice just when the run has found a
declaration both without a message and with the default text for one. This comes about by a request
that gives a constraint that very text, or finds it, while another entry of the declaration stays
without a message. -/
theorem report_nodup_iff (steps : List SessionStep) (v : Validator) (subject context : Json)
    (report : Report)
    (h : ((v.run subject context).run (Session.state steps)).1 = .failure report) :
    let s := Session.state steps
    let qs := v.requests subject context s
    let default := v.configuration.defaultMessage
    report.toList = (v.found subject context s).map (·.toViolation default) ∧
      (((v.found subject context s).map (Entry.resolve default)).Nodup ↔
        ¬(v.found subject context s).Doubled default) ∧
      ((∀ moment, moment <+: qs →
          ((Progress.after s.nextRun moment).entries.map (Entry.resolve default)).Nodup) ↔
        ∀ moment q, moment ++ [q] <+: qs →
          ¬(Progress.after s.nextRun moment).Doubles s.nextRun default q) := by
  intro s qs default
  refine ⟨?_, ?_, Progress.nodup_kept_iff s.nextRun default qs⟩
  · rw [v.run_of_returned subject context (v.returned_of_failure subject context h)] at h
    exact Outcome.toList_of_failure h
  · rw [v.found_eq subject context (Session.faithful_state steps)]
    exact Entries.nodup_resolve_iff (Progress.sound_after _ _).nodup default

/-- A node is refused twice in the same place, and the second refusal is given the default text. -/
def reassuring : Validator :=
  ⟨⟨"root", false,
    [.constrain "root" (some "first") .always 0 (.constant false) false,
      .constrain "root" (some "second") .always 0 (.constant false) false,
      .otherwise "second" "The value is invalid." .unwind]⟩, .standard, []⟩

def reassuringReport : Report :=
  ⟨[⟨.root, "The value is invalid."⟩, ⟨.root, "The value is invalid."⟩], by simp⟩

theorem reassuring_repeats :
    ((reassuring.run .null .null).run (Session.state [])).1 = .failure reassuringReport ∧
      ¬((reassuring.found .null .null (Session.state [])).map
        (Entry.resolve reassuring.configuration.defaultMessage)).Nodup :=
  ⟨rfl, by decide⟩

theorem reassuring_doubles :
    ((reassuring.run .null .null).run (Session.state [])).1 = .failure reassuringReport ∧
      ¬∀ moment q, moment ++ [q] <+: reassuring.requests .null .null (Session.state []) →
        ¬(Progress.after (Session.state []).nextRun moment).Doubles (Session.state []).nextRun
          reassuring.configuration.defaultMessage q := by
  have h : ((reassuring.run .null .null).run (Session.state [])).1 = .failure reassuringReport :=
    rfl
  refine ⟨h, fun hn => ?_⟩
  have hk := (report_nodup_iff [] reassuring .null .null reassuringReport h).2.2.mpr hn
  have hl := hk _ (List.prefix_refl _)
  revert hl
  decide

end Validator

end Vetting
