import Vetting.Proofs.Block.Record
import Vetting.Proofs.Run.Findings

/-! The order of a report. Declarations stand in the order in which they were first found, and
nothing but one kind of request changes that: when the first entry of a declaration is merged into a
later one, the declarations that came up between the two overtake it. -/

namespace Vetting

theorem eraseDups_append_cons_iff {α : Type} [BEq α] [LawfulBEq α] {before after : List α}
    {a : α}
    (h : a ∈ before ++ after) :
    (before ++ after).eraseDups = (before ++ a :: after).eraseDups ↔
      a ∈ before ∨ after.find? (!before.contains ·) = some a := by
  by_cases ha : a ∈ before
  · simp [List.eraseDups_append, List.removeAll, ha]
  · -- What is new behind `before` starts with `a` on one side, and has to do so on the other.
    have hm : a ∈ after.removeAll before := by
      simpa [List.removeAll, ha] using (List.mem_append.mp h).resolve_left ha
    have hc : (a :: after).removeAll before = a :: after.removeAll before := by
      simp [List.removeAll, ha]
    have hf : after.find? (!before.contains ·) = (after.removeAll before).head? := by
      simp [List.removeAll, List.head?_filter]
    rw [List.eraseDups_append, List.eraseDups_append, List.append_cancel_left_eq, hc, hf]
    simp only [ha, false_or]
    cases hr : after.removeAll before with
    | nil => simp [hr] at hm
    | cons x rest =>
      rw [List.eraseDups_cons, List.eraseDups_cons, List.head?_cons, Option.some.injEq,
        List.cons.injEq]
      refine and_iff_left_of_imp ?_
      rintro rfl
      simp

namespace Entries

def order (es : Entries) : List Declaration := es.declarations.eraseDups

theorem mem_order {es : Entries} {d : Declaration} : d ∈ es.order ↔ d ∈ es.declarations :=
  List.mem_eraseDups

theorem order_concat (es : Entries) (e : Entry) :
    order (es ++ [e]) =
      if e.declaration ∈ es.declarations then es.order else es.order ++ [e.declaration] := by
  rw [order, declarations_append, List.eraseDups_append]
  by_cases h : e.declaration ∈ es.declarations <;>
    simp [List.removeAll, h, order, List.eraseDups_cons]

theorem order_concat_of_mem {es : Entries} {e : Entry} (h : e.declaration ∈ es.declarations) :
    order (es ++ [e]) = es.order := by rw [order_concat, if_pos h]

theorem order_concat_congr {es fs : Entries} (h : es.order = fs.order) (e : Entry) :
    order (es ++ [e]) = order (fs ++ [e]) := by
  have hm : e.declaration ∈ es.declarations ↔ e.declaration ∈ fs.declarations := by
    rw [← mem_order, h, mem_order]
  simp only [order_concat, hm, h]

theorem order_insert (es : Entries) {e : Entry} (ho : e.origin ≠ none ∨ e.message ≠ none) :
    order (es.insert e).2 = order (es ++ [e]) := by
  by_cases h : es.Covers e
  · rw [insert_of_covers ho h, order_concat_of_mem h.mem_declarations]
  · rw [insert_of_not_covers h]

/-- The entry is its declaration's first, the messaged one stands further back, and the next
declaration to come up in between is another. -/
def Overtaken (es : Entries) (current messaged : Entry) : Prop :=
  ∃ before between next after, es = before ++ current :: (between ++ next :: after) ∧
    messaged ∈ between ++ next :: after ∧ current.declaration ∉ before.declarations ∧
    (∀ e ∈ between, e.declaration ∈ before.declarations) ∧
    next.declaration ∉ before.declarations ∧ next.declaration ≠ current.declaration

theorem order_append_cons_iff {before after : Entries} {current : Entry}
    (h : current.declaration ∈ (before ++ after).declarations) :
    order (before ++ after) = order (before ++ current :: after) ↔
      ¬(current.declaration ∉ before.declarations ∧
        ∃ between next rest, after = between ++ next :: rest ∧
          (∀ e ∈ between, e.declaration ∈ before.declarations) ∧
          next.declaration ∉ before.declarations ∧ next.declaration ≠ current.declaration) := by
  have hf : after.declarations.find? (!before.declarations.contains ·) =
      (after.find? ((!before.declarations.contains ·) ∘ Entry.declaration)).map Entry.declaration :=
    List.find?_map
  rw [declarations_append] at h
  rw [order, order, declarations_append, declarations_append, declarations_cons,
    eraseDups_append_cons_iff h, hf]
  constructor
  · rintro hd ⟨hb, between, next, rest, ha, hbs, hn, hne⟩
    have hs : after.find? ((!before.declarations.contains ·) ∘ Entry.declaration) = some next :=
      List.find?_eq_some_iff_append.mpr ⟨by simpa using hn, between, rest, ha, by simpa using hbs⟩
    rw [hs] at hd
    exact hne (Option.some.inj (hd.resolve_left hb))
  · intro hn
    by_contra hd
    obtain ⟨hb, hx⟩ := not_or.mp hd
    obtain ⟨e, he, hed⟩ := mem_declarations.mp ((List.mem_append.mp h).resolve_left hb)
    have hs : (after.find? ((!before.declarations.contains ·) ∘ Entry.declaration)).isSome := by
      rw [List.find?_isSome]
      exact ⟨e, he, by simpa [hed] using hb⟩
    obtain ⟨next, hnext⟩ := Option.isSome_iff_exists.mp hs
    rw [hnext] at hx
    obtain ⟨hp, between, rest, ha, hbs⟩ := List.find?_eq_some_iff_append.mp hnext
    exact hn ⟨hb, between, next, rest, ha, by simpa using hbs, by simpa using hp,
      fun hn => hx (congrArg some hn)⟩

theorem order_attach_iff {es : Entries} (hn : es.Nodup) {current messaged : Entry} {owned : Bool}
    (hp : owned = true → current ∈ es) (hc : current.declaration ∈ es.declarations)
    (hd : messaged.declaration = current.declaration) (hne : messaged ≠ current) :
    order (es.attach current owned messaged).2 = es.order ↔
      ¬(owned = true ∧ es.Overtaken current messaged) := by
  cases owned with
  | false =>
    refine iff_of_true ?_ (fun h => Bool.false_ne_true h.1)
    rw [attach_of_not_owned (.inl rfl)]
    by_cases hm : messaged ∈ es
    · rw [insertNew_of_mem hm]
    · rw [insertNew_of_not_mem hm, order_concat_of_mem (hd ▸ hc)]
  | true =>
    obtain ⟨before, after, rfl, hu, ha⟩ := attach_of_owned hn (hp rfl) messaged
    rw [ha]
    split
    · rename_i hm
      have hcm : current.declaration ∈ (before ++ after).declarations :=
        hd ▸ mem_declarations_of_mem hm
      rw [order_append_cons_iff hcm]
      refine not_congr ⟨?_, ?_⟩
      · rintro ⟨hb, between, next, rest, rfl, h⟩
        refine ⟨rfl, before, between, next, rest, rfl, ?_, hb, h⟩
        refine (List.mem_append.mp hm).resolve_left fun hmb => hb ?_
        exact hd ▸ mem_declarations_of_mem hmb
      · -- The entry is there once, so any such place is the one where it stands.
        rintro ⟨-, before', between, next, rest, he, -, hb, h⟩
        simp only [List.mem_append, not_or] at hu
        obtain ⟨rfl, -, rfl⟩ := (List.append_cons_inj_of_notMem hu.1 hu.2).mp he
        exact ⟨hb, between, next, rest, rfl, h⟩
    · rename_i hm
      refine iff_of_true ?_ ?_
      · simp [order, hd]
      · rintro ⟨-, before', between, next, rest, he, hmb, -⟩
        have hme : messaged ∈ before ++ current :: after := by
          rw [he]
          exact List.mem_append_right _ (List.mem_cons_of_mem _ hmb)
        exact hm (by simpa [hne] using hme)

end Entries

namespace Progress

open Request

def InOrder (run : RunId) (qs : List Request) : Prop :=
  (after run qs).entries.order = (findings run qs).order

def Overtakes (p : Progress) (q : Request) : Prop :=
  ∃ c message, p.Gives q c message ∧ c.owned = true ∧
    p.entries.Overtaken c.entry { c.entry with message := some message }

theorem inOrder_nil (run : RunId) : InOrder run [] := rfl

theorem inOrder_concat_iff {run : RunId} {qs : List Request} (h : InOrder run qs) (q : Request) :
    InOrder run (qs ++ [q]) ↔ ¬(after run qs).Overtakes q := by
  have hs := sound_after run qs
  rw [InOrder, findings_concat, after_concat]
  have hc := (after run qs).change_ask run q
  generalize ((after run qs).ask run q).entries = es at hc ⊢
  cases hc with
  | idle hn hg =>
    rw [hn, Option.toList_none, List.append_nil]
    exact iff_of_true h fun ⟨c, message, hq, _⟩ => hg c message hq
  | @find e hf =>
    rw [hf, Option.toList_some, Entries.order_insert _ (labelled_of_finding? hf)]
    refine iff_of_true (Entries.order_concat_congr h e) fun ⟨c, message, hq, _⟩ => ?_
    simp [hq.finding? run] at hf
  | @again c hn hg hm hu =>
    rw [hn, Option.toList_none, List.append_nil,
      Entries.order_insert _ (.inl (Option.some_ne_none _)),
      Entries.order_concat_of_mem (hs.declared c hm hu)]
    exact iff_of_true h fun ⟨c, message, hq, _⟩ => hg c message hq
  | @give c message hg =>
    let e : Entry := { c.entry with message := some message }
    have hd : e.declaration = c.entry.declaration := rfl
    have hne : e ≠ c.entry := Constraint.entry_ne_of_not_keeps hg.keeps
    rw [hg.finding? run, Option.toList_none, List.append_nil, ← h,
      Entries.order_attach_iff hs.nodup (hs.present c hg.exist)
        (hs.declared c hg.exist hg.satisfied) hd hne]
    refine not_congr ⟨fun ho => ⟨c, message, hg, ho⟩, ?_⟩
    rintro ⟨c', message', hg', ho⟩
    cases hg.asked.symm.trans hg'.asked
    exact ho

theorem order_kept_iff (run : RunId) (qs : List Request) :
    (∀ moment, moment <+: qs → InOrder run moment) ↔
      ∀ moment q, moment ++ [q] <+: qs → ¬(after run moment).Overtakes q :=
  forall_prefix_iff (inOrder_nil run) (fun _ q h => inOrder_concat_iff h q) qs

end Progress

namespace Validator

/-- In the report of a failure, declarations stand in the order in which they were first found, and
have stood so at every moment of the run, just when none has been overtaken. -/
theorem report_order_iff (steps : List SessionStep) (v : Validator) (subject context : Json)
    (report : Report)
    (h : ((v.run subject context).run (Session.state steps)).1 = .failure report) :
    let s := Session.state steps
    let qs := v.requests subject context s
    report.toList =
        (Progress.after s.nextRun qs).entries.map (·.toViolation v.configuration.defaultMessage) ∧
      ((∀ moment, moment <+: qs → Progress.InOrder s.nextRun moment) ↔
        ∀ moment q, moment ++ [q] <+: qs → ¬(Progress.after s.nextRun moment).Overtakes q) := by
  intro s qs
  refine ⟨?_, Progress.order_kept_iff s.nextRun qs⟩
  rw [v.run_of_returned subject context (v.returned_of_failure subject context h)] at h
  rw [← v.found_eq subject context (Session.faithful_state steps)]
  exact Outcome.toList_of_failure h

/-- A node is refused twice in the same place, and another in between; the message for the second
refusal comes to the end, where the message for the first is merged into it. -/
def overtaking : Validator :=
  ⟨⟨"root", false,
    [.derive "root" "child" (.key "child"),
      .constrain "root" (some "first") .always 0 (.constant false) false,
      .constrain "child" none .always 1 (.constant false) false,
      .constrain "root" (some "again") .always 0 (.constant false) false,
      .otherwise "again" "Refused" .unwind,
      .otherwise "first" "Refused" .unwind]⟩, .standard, []⟩

def overtakingReport : Report :=
  ⟨[⟨Path.root.push "child", "The value is invalid."⟩, ⟨.root, "Refused"⟩], by simp⟩

theorem overtaking_out_of_order :
    ((overtaking.run .null .null).run (Session.state [])).1 = .failure overtakingReport ∧
      ¬Progress.InOrder (Session.state []).nextRun
        (overtaking.requests .null .null (Session.state [])) := by
  refine ⟨rfl, ?_⟩
  unfold Progress.InOrder
  decide

theorem overtaking_overtakes :
    ((overtaking.run .null .null).run (Session.state [])).1 = .failure overtakingReport ∧
      ¬∀ moment q, moment ++ [q] <+: overtaking.requests .null .null (Session.state []) →
        ¬(Progress.after (Session.state []).nextRun moment).Overtakes q := by
  have h : ((overtaking.run .null .null).run (Session.state [])).1 = .failure overtakingReport :=
    rfl
  refine ⟨h, fun hn => ?_⟩
  have ho := (report_order_iff [] overtaking .null .null overtakingReport h).2.mpr hn
  have hl := ho _ (List.prefix_refl _)
  unfold Progress.InOrder at hl
  revert hl
  decide

end Validator

end Vetting
