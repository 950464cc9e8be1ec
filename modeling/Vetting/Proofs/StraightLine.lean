import Mathlib.Data.List.ModifyLast
import Vetting.Proofs.Block.Record
import Vetting.Proofs.Run.Findings

/-! Straight-line blocks, which give each constraint its messages before they go on. What comes of
them can be told without entries that are replaced or merged: every finding is taken with its last
message, and is kept unless it has been kept before or was better said before. -/

namespace Vetting

namespace Entries

/-- Keeps a finding unless it is there, or has no message where one of its declaration has. -/
def keep (kept : Entries) (e : Entry) : Entries :=
  if e ∈ kept ∨
      e.message = none ∧ ∃ k ∈ kept, k.message ≠ none ∧ k.path = e.path ∧ k.origin = e.origin then
    kept
  else kept ++ [e]

def keepAll (found : Entries) : Entries := found.foldl keep []

theorem keepAll_concat (found : Entries) (e : Entry) :
    keepAll (found ++ [e]) = (keepAll found).keep e := by simp [keepAll]

theorem keep_eq_insert (es : Entries) {e : Entry} (ho : e.origin ≠ none ∨ e.message ≠ none) :
    es.keep e = (es.insert e).2 := by
  have hc : es.Covers e ↔ e ∈ es ∨
      e.message = none ∧ ∃ k ∈ es, k.message ≠ none ∧ k.path = e.path ∧ k.origin = e.origin := by
    simp only [Covers, Entry.declaration, Prod.mk.injEq]
  by_cases h : es.Covers e
  · rw [keep, if_pos (hc.mp h), insert_of_covers ho h]
  · rw [keep, if_neg (mt hc.mpr h), insert_of_not_covers h]

end Entries

namespace Request

def concerns (run : RunId) : Request → Bool
  | .declare n .. => n.run = run
  | .apply n .. => n.run = run
  | .otherwise c _ => c.run = run
  | .register .. => false
  | .report n _ => n.run = run

def current (run : RunId) (qs : List Request) : Option Constraint :=
  match (qs.filter (concerns run)).getLast? with
  | some (.report ..) => none
  | _ => (Progress.after run qs).constraints.head?

/-- Messages are given to the constraint made last only, and none is refused. -/
def StraightLine (run : RunId) (qs : List Request) : Prop :=
  ∀ before c message, before ++ [.otherwise c message] <+: qs → c.run = run →
    current run before = some c ∧ c.declines message = false

def note (run : RunId) (found : Entries) : Request → Entries
  | .otherwise c message =>
    if c.run = run ∧ c.satisfied = false then
      found.modifyLast fun e => { e with message := some message }
    else found
  | q => found ++ (q.finding? run).toList

def noted (run : RunId) (qs : List Request) : Entries := qs.foldl (note run) []

theorem noted_concat (run : RunId) (qs : List Request) (q : Request) :
    noted run (qs ++ [q]) = note run (noted run qs) q := by simp [noted]

theorem noted_of_some {run : RunId} {q : Request} {e : Entry} (h : q.finding? run = some e)
    (qs : List Request) : noted run (qs ++ [q]) = noted run qs ++ [e] := by
  have hn : note run (noted run qs) q = noted run qs ++ (q.finding? run).toList := by
    cases q with
    | otherwise c message => cases h
    | _ => rfl
  rw [noted_concat, hn, h, Option.toList_some]

theorem noted_of_none {run : RunId} {q : Request} (h : q.finding? run = none)
    (hq : ∀ c message, q = .otherwise c message → c.run ≠ run ∨ c.satisfied = true)
    (qs : List Request) : noted run (qs ++ [q]) = noted run qs := by
  rw [noted_concat]
  cases q with
  | otherwise c message =>
    refine if_neg fun hc => ?_
    rcases hq c message rfl with hr | hs
    · exact hr hc.1
    · exact absurd (hs.symm.trans hc.2) Bool.noConfusion
  | _ =>
    change noted run qs ++ (finding? run _).toList = noted run qs
    rw [h, Option.toList_none, List.append_nil]

theorem mem_of_current {run : RunId} {qs : List Request} {c : Constraint}
    (h : current run qs = some c) : c ∈ (Progress.after run qs).constraints := by
  unfold current at h
  split at h
  · cases h
  · exact List.mem_of_head? h

theorem current_of_not_concerns {run : RunId} {qs : List Request} {q : Request}
    (hq : q.concerns run = false)
    (hc : (Progress.after run (qs ++ [q])).constraints = (Progress.after run qs).constraints) :
    current run (qs ++ [q]) = current run qs := by
  simp [current, List.filter_append, hq, hc]

theorem current_of_concerns {run : RunId} {q : Request} (hq : q.concerns run = true)
    (hr : ∀ n v, q ≠ .report n v) (qs : List Request) :
    current run (qs ++ [q]) = (Progress.after run (qs ++ [q])).constraints.head? := by
  have hl : ((qs ++ [q]).filter (concerns run)).getLast? = some q := by
    simp [List.filter_append, hq]
  unfold current
  rw [hl]
  split
  · rename_i n v h
    exact absurd (Option.some.inj h) (hr n v)
  · rfl

theorem current_of_report {run : RunId} {n : Node Content} (hn : n.run = run) (v : Violation)
    (qs : List Request) : current run (qs ++ [.report n v]) = none := by
  have hl : ((qs ++ [Request.report n v]).filter (concerns run)).getLast? = some (.report n v) := by
    simp [List.filter_append, concerns, hn]
  unfold current
  rw [hl]

theorem straightLine_nil (run : RunId) : StraightLine run [] := by
  intro before c message hp
  simp at hp

theorem straightLine_concat {run : RunId} {qs : List Request} {q : Request} :
    StraightLine run (qs ++ [q]) ↔
      StraightLine run qs ∧
        ∀ c message, q = .otherwise c message → c.run = run →
          current run qs = some c ∧ c.declines message = false := by
  constructor
  · refine fun h => ⟨fun before c message hp => ?_, ?_⟩
    · exact h before c message (hp.trans (List.prefix_append qs [q]))
    · rintro c message rfl
      exact h qs c message (List.prefix_refl _)
  · rintro ⟨h, hq⟩ before c message hp
    rcases List.prefix_concat_iff.mp hp with he | hp
    · obtain ⟨rfl, hl⟩ := List.append_inj' he rfl
      exact hq c message (List.singleton_inj.mp hl).symm
    · exact h before c message hp

end Request

namespace Progress

open Request

/-- Where a straight-line block stands: either the constraint made last may still be given a
message, and its entry has come to those kept of the earlier findings, or all findings are settled.
No other constraint has anything left to say. -/
inductive Walked (run : RunId) (qs : List Request) : Prop where
  | pending {c : Constraint} {found : Entries} : current run qs = some c → c.satisfied = false →
    noted run qs = found ++ [c.entry] →
    (after run qs).entries = (found.keepAll.insert c.entry).2 →
    c.owned = (found.keepAll.insert c.entry).1 →
    (∀ d ∈ (after run qs).constraints.erase c, d.satisfied = false →
      found.keepAll.Covers d.entry) →
    Walked run qs
  | settled : (∀ c, current run qs = some c → c.satisfied = true) →
    (after run qs).entries = (noted run qs).keepAll →
    (∀ d ∈ (after run qs).constraints, d.satisfied = false →
      (noted run qs).keepAll.Covers d.entry) →
    Walked run qs

variable {run : RunId} {qs : List Request} {q : Request}

theorem Walked.entries (h : Walked run qs) : (after run qs).entries = (noted run qs).keepAll := by
  cases h with
  | pending _ _ hn he _ _ =>
    rw [he, hn, Entries.keepAll_concat, Entries.keep_eq_insert _ (.inl (Option.some_ne_none _))]
  | settled _ he _ => exact he

theorem Walked.covers (h : Walked run qs) {d : Constraint} (hd : d ∈ (after run qs).constraints)
    (hu : d.satisfied = false) : (after run qs).entries.Covers d.entry := by
  cases h with
  | @pending c found hc _ _ he _ hs =>
    rw [he]
    by_cases hdc : d = c
    · subst hdc
      exact found.keepAll.covers_insert d.entry (.inl (Option.some_ne_none _))
    · exact (hs d ((List.mem_erase_of_ne hdc).mpr hd) hu).mono (Entries.subset_insert ..)
  | settled _ he hs =>
    rw [he]
    exact hs d hd hu

theorem Walked.idle (h : Walked run qs) (hc : q.concerns run = false)
    (ha : after run (qs ++ [q]) = after run qs) (hn : noted run (qs ++ [q]) = noted run qs) :
    Walked run (qs ++ [q]) := by
  have hcur := current_of_not_concerns hc (congrArg Progress.constraints ha)
  cases h with
  | pending h1 h2 h3 h4 h5 h6 =>
    exact .pending (hcur.trans h1) h2 (hn.trans h3) (ha ▸ h4) h5 (ha ▸ h6)
  | settled h1 h2 h3 =>
    refine .settled (hcur ▸ h1) ?_ ?_
    · rw [ha, hn, h2]
    · rw [ha, hn]
      exact h3

theorem Walked.fail (h : Walked run qs) {c : Constraint} (hq : q.concerns run = true)
    (hr : ∀ n v, q ≠ .report n v) (hu : c.satisfied = false)
    (ha : after run (qs ++ [q]) = (after run qs).add (c, ((after run qs).entries.insert c.entry).2))
    (ho : c.owned = ((after run qs).entries.insert c.entry).1)
    (hn : noted run (qs ++ [q]) = noted run qs ++ [c.entry]) : Walked run (qs ++ [q]) := by
  have he := h.entries
  refine .pending ?_ hu hn ?_ ?_ ?_
  · rw [current_of_concerns hq hr, ha]
    rfl
  · rw [ha, ← he]
    rfl
  · rw [ho, he]
  · rw [ha, ← he]
    intro d hd hud
    exact h.covers (by simpa [add] using hd) hud

theorem Walked.pass (h : Walked run qs) {c : Constraint} (hq : q.concerns run = true)
    (hr : ∀ n v, q ≠ .report n v) (hs : c.satisfied = true)
    (ha : after run (qs ++ [q]) = (after run qs).add (c, (after run qs).entries))
    (hn : noted run (qs ++ [q]) = noted run qs) : Walked run (qs ++ [q]) := by
  refine .settled (fun d hd => ?_) ?_ fun d hd hu => ?_
  · rw [current_of_concerns hq hr, ha] at hd
    cases hd
    exact hs
  · rw [ha, hn]
    exact h.entries
  · rw [hn, ← h.entries]
    rw [ha] at hd
    rcases List.mem_cons.mp hd with rfl | hd
    · exact absurd (hs.symm.trans hu) Bool.noConfusion
    · exact h.covers hd hu

theorem Walked.report (h : Walked run qs) {n : Node Content} (hr : n.run = run) (v : Violation) :
    Walked run (qs ++ [.report n v]) := by
  let e := Entry.ofViolation v
  have hf : finding? run (.report n v) = some e := by rw [finding?_report, if_pos hr]
  have ha : after run (qs ++ [.report n v]) = (after run qs).insert e := by
    rw [after_concat, ask, if_pos hr]
  have hn : (noted run (qs ++ [.report n v])).keepAll = ((after run qs).entries.insert e).2 := by
    rw [noted_of_some hf, Entries.keepAll_concat, h.entries,
      Entries.keep_eq_insert _ (labelled_of_finding? hf)]
  refine .settled (fun c hc => ?_) ?_ fun d hd hu => ?_
  · rw [current_of_report hr] at hc
    cases hc
  · rw [ha, hn]
    rfl
  · rw [hn]
    rw [ha] at hd
    exact (h.covers hd hu).mono (Entries.subset_insert ..)

theorem Walked.declare (h : Walked run qs) {n : Node Content} (hr : n.run = run) (satisfied : Bool)
    (origin : Origin) : Walked run (qs ++ [.declare n satisfied origin]) := by
  have hf := finding?_declare run n satisfied origin
  have ha := after_concat run qs (.declare n satisfied origin)
  rw [ask, if_pos hr] at ha
  cases satisfied with
  | true =>
    rw [Constraint.declared_true] at ha
    exact h.pass (by simpa [concerns] using hr) (by simp) rfl ha
      (noted_of_none (by simp [hf]) (by simp) qs)
  | false =>
    rw [Constraint.declared_false] at ha
    exact h.fail (by simpa [concerns] using hr) (by simp) rfl ha rfl
      (noted_of_some (by simp [hf, hr, Constraint.entry]) qs)

theorem Walked.apply (h : Walked run qs) {n : Node Content} (hr : n.run = run) (r : Rule) :
    Walked run (qs ++ [.apply n r]) := by
  have hf := finding?_apply run n r
  have ha := after_concat run qs (.apply n r)
  rw [ask, if_pos hr] at ha
  cases hs : r.passes n.value with
  | true =>
    rw [hs, Constraint.judged_true] at ha
    exact h.pass (by simpa [concerns] using hr) (by simp) rfl ha
      (noted_of_none (by simp [hf, hs]) (by simp) qs)
  | false =>
    rw [hs, Constraint.judged_false] at ha
    exact h.fail (by simpa [concerns] using hr) (by simp) rfl ha rfl
      (noted_of_some (by simp [hf, hr, hs, Constraint.entry]) qs)

theorem Walked.register (h : Walked run qs) (n : Node Content) (c : Constraint) :
    Walked run (qs ++ [.register n c]) := by
  refine h.idle rfl ?_ (noted_of_none rfl (by simp) qs)
  rw [after_concat, ask]
  split
  · rename_i hc
    rw [insert, Entries.insert_of_covers (.inl (Option.some_ne_none _)) (h.covers hc.2.1 hc.2.2)]
  · rfl

theorem Walked.keep (h : Walked run qs) {c : Constraint} {message : String}
    (hr : c.run = run) (hc : current run qs = some c) (hk : c.keeps message = true) :
    Walked run (qs ++ [.otherwise c message]) := by
  have hm := mem_of_current hc
  have ha : after run (qs ++ [.otherwise c message]) =
      ((after run qs).drop c).add (c, (after run qs).entries) := by
    rw [after_concat, ask, if_pos hm, if_neg (by simp [Constraint.declines, hk]),
      Constraint.messaged_of_keeps hk]
  have hcur : current run (qs ++ [.otherwise c message]) = some c := by
    rw [current_of_concerns (by simpa [concerns] using hr) (by simp), ha]
    rfl
  cases h with
  | @pending c' found hc' hu hn he ho hs =>
    cases hc.symm.trans hc'
    have hcm : c.message = some message := by simpa [Constraint.keeps, hu] using hk
    refine .pending hcur hu ?_ (by rw [ha]; exact he) ho (by rw [ha]; simpa [add, drop] using hs)
    have hce : { c.entry with message := some message } = c.entry := by
      rw [← hcm]
      rfl
    rw [noted_concat, note, if_pos ⟨hr, hu⟩, hn, List.modifyLast_concat, hce]
  | settled hs he hcv =>
    have hsat := hs c hc
    have hn : noted run (qs ++ [.otherwise c message]) = noted run qs := by
      refine noted_of_none rfl (fun d message' hd => ?_) qs
      cases hd
      exact .inr hsat
    refine .settled (fun d hd => ?_) (by rw [ha, hn]; exact he) fun d hd hu => ?_
    · cases hcur.symm.trans hd
      exact hsat
    · rw [ha] at hd
      rw [hn]
      exact hcv d ((List.perm_cons_erase hm).mem_iff.mpr hd) hu

theorem Walked.give (h : Walked run qs) {c : Constraint} {message : String}
    (hr : c.run = run) (hc : current run qs = some c)
    (hg : (after run qs).Gives (.otherwise c message) c message) :
    Walked run (qs ++ [.otherwise c message]) := by
  have hu := hg.satisfied
  cases h with
  | settled hs _ _ => exact absurd ((hs c hc).symm.trans hu) Bool.noConfusion
  | @pending c' found hc' _ hn he ho hs =>
    cases hc.symm.trans hc'
    let e : Entry := { c.entry with message := some message }
    -- Whether the entry is replaced, merged or not the constraint's own, the outcome is one.
    have ht : (after run qs).entries.attach c.entry c.owned e = found.keepAll.insert e := by
      rw [he, ho, Entries.attach_insert _ e (.inl (Option.some_ne_none _)),
        Entries.insert_of_message (Option.some_ne_none _)]
    let d : Constraint := { c with
      message := some message, overridable := false, owned := (found.keepAll.insert e).1 }
    have ha : after run (qs ++ [.otherwise c message]) =
        ((after run qs).drop c).add (d, (found.keepAll.insert e).2) := by
      rw [after_concat, hg.ask_eq, Constraint.messaged_of_not_keeps hg.keeps, ht]
    refine @Walked.pending _ _ d found ?_ hu ?_ (by rw [ha]; rfl) rfl ?_
    · rw [current_of_concerns (by simpa [concerns] using hr) (by simp), ha]
      rfl
    · rw [noted_concat, note, if_pos ⟨hr, hu⟩, hn, List.modifyLast_concat]
      rfl
    · rw [ha]
      simpa [add, drop] using hs

theorem Walked.foreign (h : Walked run qs) (hc : q.concerns run = false)
    (hf : q.finding? run = none) (ha : (after run qs).ask run q = after run qs)
    (hq : ∀ c message, q = .otherwise c message → c.run ≠ run) : Walked run (qs ++ [q]) :=
  h.idle hc ((after_concat run qs q).trans ha)
    (noted_of_none hf (fun c message he => .inl (hq c message he)) qs)

theorem Walked.concat (h : Walked run qs)
    (hq : ∀ c message, q = .otherwise c message → c.run = run →
      current run qs = some c ∧ c.declines message = false) : Walked run (qs ++ [q]) := by
  cases q with
  | declare n satisfied origin =>
    by_cases hr : n.run = run
    · exact h.declare hr satisfied origin
    · exact h.foreign (by simpa [concerns] using hr) (by simp [finding?_declare, hr])
        (by rw [ask, if_neg hr]) (by simp)
  | apply n r =>
    by_cases hr : n.run = run
    · exact h.apply hr r
    · exact h.foreign (by simpa [concerns] using hr) (by simp [finding?_apply, hr])
        (by rw [ask, if_neg hr]) (by simp)
  | otherwise c message =>
    by_cases hr : c.run = run
    · obtain ⟨hc, hd⟩ := hq c message rfl hr
      cases hk : c.keeps message with
      | true => exact h.keep hr hc hk
      | false =>
        have hcr : c.refuses message = false := by simpa [Constraint.declines, hk] using hd
        exact h.give hr hc ⟨rfl, mem_of_current hc, hk, hcr⟩
    · refine h.foreign (by simpa [concerns] using hr) rfl ?_ fun d message' hd => ?_
      · rw [ask, if_neg fun hm => hr (run_of_mem_constraints hm)]
      · cases hd
        exact hr
  | register n c => exact h.register n c
  | report n v =>
    by_cases hr : n.run = run
    · exact h.report hr v
    · exact h.foreign (by simpa [concerns] using hr) (by simp [finding?_report, hr])
        (by rw [ask, if_neg hr]) (by simp)

theorem walked_of_straightLine (h : StraightLine run qs) : Walked run qs := by
  induction qs using List.reverseRecOn with
  | nil =>
    exact .settled (fun c hc => by simp [current, start] at hc) rfl
      fun d hd => absurd hd List.not_mem_nil
  | append_singleton qs q ih =>
    obtain ⟨hqs, hq⟩ := straightLine_concat.mp h
    exact (ih hqs).concat hq

end Progress

namespace Validator

open Request

/-- A run whose block returns and is straight-line comes to what is kept of its findings: without
any it is a success, and otherwise it reports just these, with the default message where there is
none. -/
theorem outcome_of_straightLine (steps : List SessionStep) (v : Validator) (subject context : Json)
    (h : (v.play subject context (Session.state steps)).1 = .ok ())
    (hs : StraightLine (Session.state steps).nextRun
      (v.requests subject context (Session.state steps))) :
    let s := Session.state steps
    let kept := (noted s.nextRun (v.requests subject context s)).keepAll
    let outcome := ((v.run subject context).run s).1
    (kept = [] → outcome = .success subject) ∧
      (kept ≠ [] → ∃ report, outcome = .failure report ∧
        report.toList = kept.map fun e =>
          ⟨e.path, e.message.getD v.configuration.defaultMessage⟩) := by
  intro s kept outcome
  have hk : v.found subject context s = kept := by
    rw [v.found_eq subject context (Session.faithful_state steps)]
    exact (Progress.walked_of_straightLine hs).entries
  have ho : outcome = .ofViolations subject
      (kept.map (·.toViolation v.configuration.defaultMessage)) := by
    rw [← hk]
    exact v.run_of_returned subject context h
  refine ⟨fun hn => ?_, fun hn => ?_⟩
  · rw [ho, hn]
    rfl
  · rw [ho]
    exact Outcome.exists_report subject (mt List.map_eq_nil_iff.mp hn)

def demanding : Validator :=
  ⟨⟨"root", false,
    [.derive "root" "name" (.key "name"),
      .apply "name" (some "missing") .present,
      .otherwise "missing" "A name is needed" .unwind,
      .constrain "root" none .always 0 (.constant false) false]⟩, .standard, []⟩

theorem demanding_reports :
    (demanding.play .null .null (Session.state [])).1 = .ok () ∧
      StraightLine (Session.state []).nextRun (demanding.requests .null .null (Session.state [])) ∧
      ∃ report, ((demanding.run .null .null).run (Session.state [])).1 = .failure report ∧
        report.messages = ["A name is needed", "The value is invalid."] := by
  have h : (demanding.play .null .null (Session.state [])).1 = .ok () := rfl
  have hs : StraightLine (Session.state []).nextRun
      (demanding.requests .null .null (Session.state [])) := by
    let name : Node Content := ⟨.optional none, Path.root.push "name", 0⟩
    let missing : Constraint :=
      ⟨false, Path.root.push "name", some "Must not be null", true, .rule .present, 0, true⟩
    change StraightLine 0 ((([] ++ [.apply name .present]) ++
      [.otherwise missing "A name is needed"]) ++
      [.declare ⟨.plain (.json .null), .root, 0⟩ false (.site .always 0)])
    refine straightLine_concat.mpr ⟨straightLine_concat.mpr
      ⟨straightLine_concat.mpr ⟨straightLine_nil 0, by simp⟩, fun c message hc _ => ?_⟩, by simp⟩
    cases hc
    exact ⟨by decide, by decide⟩
  obtain ⟨report, hr, hl⟩ := (outcome_of_straightLine [] demanding .null .null h hs).2 (by decide)
  refine ⟨h, hs, report, hr, ?_⟩
  rw [Report.messages, hl]
  decide

end Validator

end Vetting
