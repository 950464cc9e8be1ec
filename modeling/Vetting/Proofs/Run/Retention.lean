import Vetting.Proofs.Run.Ownership

/-! Which messages stay. A constraint with a message goes by the entry of that message, and equal
entries of several constraints are one. It stays until the constraint that owns it is given another
message; whoever else went by it has then lost its message. Nothing else takes a message away. -/

namespace Vetting

namespace Progress

def Retains (p : Progress) : Prop :=
  ∀ c ∈ p.constraints, c.satisfied = false → c.message ≠ none → c.entry ∈ p.entries

def Strips (p : Progress) (q : Request) : Prop :=
  ∃ c message, p.Gives q c message ∧ c.owned = true ∧ c.message ≠ none ∧
    ∃ d ∈ p.constraints.erase c, d.entry = c.entry

theorem not_strips {p : Progress} {q : Request} (h : ∀ c message, q ≠ .otherwise c message) :
    ¬p.Strips q := fun ⟨c, message, hg, _⟩ => h c message hg.asked

theorem Retains.grow {p : Progress} (h : p.Retains) {es : Entries} (hs : p.entries ⊆ es) :
    Retains ⟨es, p.constraints⟩ := fun c hc hu hm => hs (h c hc hu hm)

theorem retains_cons {es : Entries} {c : Constraint} {cs : List Constraint} :
    Retains ⟨es, c :: cs⟩ ↔
      (c.satisfied = false → c.message ≠ none → c.entry ∈ es) ∧ Retains ⟨es, cs⟩ :=
  List.forall_mem_cons

theorem Retains.add_declared {p : Progress} (h : p.Retains) (satisfied : Bool) (path : Path)
    (run : RunId) (origin : Origin) :
    (p.add (Constraint.declared satisfied path run origin p.entries)).Retains := by
  cases satisfied with
  | true => exact retains_cons.mpr ⟨nofun, h⟩
  | false =>
    exact retains_cons.mpr ⟨fun _ hm => absurd rfl hm, h.grow (p.entries.subset_insert _)⟩

theorem Retains.add_judged {p : Progress} (h : p.Retains) (satisfied : Bool) (path : Path)
    (run : RunId) (name : RuleName) (message : String) :
    (p.add (Constraint.judged satisfied path run name message p.entries)).Retains := by
  cases satisfied with
  | true => exact retains_cons.mpr ⟨nofun, h⟩
  | false =>
    have hm : (⟨path, some message, some (.rule name)⟩ : Entry).message ≠ none :=
      Option.some_ne_none _
    rw [Constraint.judged_false]
    refine retains_cons.mpr ⟨fun _ _ => ?_, h.grow (p.entries.subset_insert _)⟩
    exact (p.entries.covers_insert _ (.inr hm)).mem hm

theorem Retains.add_messaged {p : Progress} (h : p.Retains) {c : Constraint}
    (hx : c.owned = true → ∀ d ∈ p.constraints, d.satisfied = false → d.message ≠ none →
      d.entry ≠ c.entry)
    {message : String} (hk : c.keeps message = false) :
    (p.add (c.messaged message p.entries)).Retains := by
  rw [Constraint.messaged_of_not_keeps hk]
  refine retains_cons.mpr ⟨fun _ _ => Entries.mem_attach_self .., fun d hd hu hm => ?_⟩
  exact Entries.mem_attach_of_mem _ (h d hd hu hm) fun ho => hx ho d hd hu hm

theorem Sound.satisfied_eq_false {p : Progress} (h : p.Sound) {c : Constraint}
    (hc : c ∈ p.constraints) (hm : c.message ≠ none) : c.satisfied = false := by
  by_contra hs
  exact hm (h.idle c hc (by simpa using hs)).2

theorem Sound.retains_otherwise_iff {p : Progress} (h : p.Sound) (hr : p.Retains) {c : Constraint}
    (hc : c ∈ p.constraints) {message : String} (hk : c.keeps message = false) :
    ((p.drop c).add (c.messaged message p.entries)).Retains ↔
      ¬(c.owned = true ∧ c.message ≠ none ∧ ∃ d ∈ p.constraints.erase c, d.entry = c.entry) := by
  have hd : (p.drop c).Retains := fun d hd => hr d (List.mem_of_mem_erase hd)
  constructor
  · rintro hn ⟨ho, hm, d, hdc, he⟩
    have hdm : d.message ≠ none := (congrArg Entry.message he : d.message = c.message).trans_ne hm
    have hdu := h.satisfied_eq_false (List.mem_of_mem_erase hdc) hdm
    -- The other constraint would need the very entry that its owner has left.
    have hde := hn d (List.mem_cons_of_mem _ hdc) hdu hdm
    rw [he, Constraint.messaged_of_not_keeps hk, ho] at hde
    exact Entries.not_mem_attach_current h.nodup (h.present c hc ho)
      (Constraint.entry_ne_of_not_keeps hk).symm hde
  · intro hn
    refine hd.add_messaged (fun ho d hdc _ hdm he => hn ⟨ho, ?_, d, hdc, he⟩) hk
    exact (congrArg Entry.message he.symm : c.message = d.message).trans_ne hdm

theorem Sound.retains_ask_iff {p : Progress} (h : p.Sound) (hr : p.Retains) (run : RunId)
    (q : Request) : (p.ask run q).Retains ↔ ¬p.Strips q := by
  cases q with
  | declare n satisfied origin =>
    refine iff_of_true ?_ (not_strips (by simp))
    rw [Progress.ask]
    split
    · exact hr.add_declared _ _ _ _
    · exact hr
  | apply n r =>
    refine iff_of_true ?_ (not_strips (by simp))
    rw [Progress.ask]
    split
    · exact hr.add_judged _ _ _ _ _
    · exact hr
  | otherwise c message =>
    by_cases hg : p.Gives (.otherwise c message) c message
    · rw [hg.ask_eq, h.retains_otherwise_iff hr hg.exist hg.keeps]
      refine not_congr ⟨fun hs => ⟨c, message, hg, hs⟩, ?_⟩
      rintro ⟨c', message', hg', hs⟩
      cases hg'.asked
      exact hs
    · obtain ⟨he, hc⟩ := ask_otherwise_of_not_gives hg run
      refine iff_of_true (fun d hd hu hm => he ▸ hr d (hc hd) hu hm) ?_
      rintro ⟨c', message', hg', -⟩
      cases hg'.asked
      exact hg hg'
  | register n c =>
    refine iff_of_true ?_ (not_strips (by simp))
    rw [Progress.ask]
    split
    · exact hr.grow (p.entries.subset_insert _)
    · exact hr
  | report n v =>
    refine iff_of_true ?_ (not_strips (by simp))
    rw [Progress.ask]
    split
    · exact hr.grow (p.entries.subset_insert _)
    · exact hr

end Progress

namespace World

/-- What a constraint with a message counts on while its run is open: the message is in the
collection, a failure of the run reports it, and to register the constraint again changes nothing.
-/
structure Retains (w : World) (c : Constraint) : Prop where
  present : c.entry ∈ (w.runs.ledger c.run).entries
  reported : ∀ default message, c.message = some message →
    ⟨c.path, message⟩ ∈ (w.runs.complete c.run default).1
  settled : ∀ n : Node Content, n.run = c.run → (n.register c).run w.runs = (.ok (), w.runs)

def RetainsMessages (w : World) : Prop :=
  ∀ c ∈ w.constraints, (w.runs.ledger c.run).completed = false → c.satisfied = false →
    c.message ≠ none → w.Retains c

/-- The deed takes a message away from a constraint of an open run, by giving another constraint
that owns their common entry a new message. -/
def Strips (w : World) : Deed → Prop
  | .ask q => ∃ run, (w.runs.ledger run).completed = false ∧ (w.progress run).Strips q
  | _ => False

theorem retains_of_mem {w : World} {c : Constraint} (hu : c.satisfied = false)
    (ho : (w.runs.ledger c.run).completed = false)
    (hc : c.entry ∈ (w.runs.ledger c.run).entries) : w.Retains c where
  present := hc
  reported := by
    intro default message hm
    have hv : (⟨c.path, message⟩ : Violation) = c.entry.toViolation default := by
      simp [Constraint.entry, Entry.toViolation, hm]
    rw [hv]
    exact List.mem_map_of_mem hc
  settled := by
    intro n hn
    have hi : ((w.runs.ledger c.run).entries.insert c.entry).2 = (w.runs.ledger c.run).entries := by
      rw [Entries.insert_of_covers (.inl (Option.some_ne_none _)) (.inl hc)]
    rw [Node.run_register]
    simp [hn, ho, hu, hi, Runs.setEntries_self]

theorem retainsMessages_iff {w : World} : w.RetainsMessages ↔ w.Each Progress.Retains := by
  constructor
  · intro h run ho c hc hu hm
    obtain ⟨hcw, rfl⟩ := mem_constraints_progress.mp hc
    exact (h c hcw ho hu hm).present
  · intro h c hc ho hu hm
    exact retains_of_mem hu ho (h c.run ho c (mem_constraints_progress.mpr ⟨hc, rfl⟩) hu hm)

theorem Sound.retainsMessages_step_iff {w : World} (h : w.Sound) (hr : w.RetainsMessages)
    (d : Deed) : (w.step d).RetainsMessages ↔ ¬w.Strips d := by
  rw [retainsMessages_iff] at hr ⊢
  cases d with
  | start =>
    have h0 : Progress.start.Retains := fun c hc => absurd hc List.not_mem_nil
    exact iff_of_true (hr.start h0 h.started) not_false
  | ask q =>
    simp only [Each, World.step, Strips, completed_ask, not_exists, not_and]
    refine forall₂_congr fun run ho => ?_
    rw [progress_ask q ho]
    exact (h.progress run ho).retains_ask_iff (hr run ho) run q
  | complete run default => exact iff_of_true (hr.complete run default) not_false

/-- Messages last throughout a history just when no constraint of it is given a new message while it
owns an entry that another goes by. -/
theorem messages_last_iff (history : List Deed) :
    (∀ moment, moment <+: history → (after moment).RetainsMessages) ↔
      ∀ moment d, moment ++ [d] <+: history → ¬(after moment).Strips d := by
  refine forall_prefix_iff ?_ (fun moment d hm => ?_) history
  · exact fun c hc => absurd hc List.not_mem_nil
  · rw [after_concat]
    exact (sound_after moment).retainsMessages_step_iff hm d

/-- A rule is applied twice to a node; the first of the two constraints, which owns the complaint of
both, is then given a message. -/
def sharedComplaint : List Deed :=
  let name : Node Content := ⟨.optional none, Path.root.push "name", 0⟩
  let first : Constraint :=
    ⟨false, Path.root.push "name", some "Must not be null", true, .rule .present, 0, true⟩
  [.start, .ask (.apply name .present), .ask (.apply name .present),
    .ask (.otherwise first "A name is needed")]

theorem sharedComplaint_loses_message : ¬(after sharedComplaint).RetainsMessages := by
  intro h
  let second : Constraint :=
    ⟨false, Path.root.push "name", some "Must not be null", true, .rule .present, 0, false⟩
  have hp := (h second (by decide) rfl rfl (Option.some_ne_none _)).present
  revert hp
  decide

end World

end Vetting
