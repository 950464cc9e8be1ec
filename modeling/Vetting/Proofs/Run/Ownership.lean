import Mathlib.Data.List.Induction
import Vetting.Proofs.Run.World

/-! Who owns which entry. A collection holds no entry twice, a constraint that owns its entry finds
it there, no two constraints own the same one, and every unsatisfied constraint has some entry of
its declaration. Whatever is asked of a run, in whatever order, keeps this. -/

namespace Vetting

theorem forall_prefix_iff {α : Type} {P : List α → Prop} {Breaks : List α → α → Prop} (h : P [])
    (hs : ∀ l a, P l → (P (l ++ [a]) ↔ ¬Breaks l a)) (l : List α) :
    (∀ k, k <+: l → P k) ↔ ∀ k a, k ++ [a] <+: l → ¬Breaks k a := by
  induction l using List.reverseRecOn with
  | nil => simp [h]
  | append_singleton l a ih =>
    have hl : (∀ k, k <+: l ++ [a] → P k) ↔ P (l ++ [a]) ∧ ∀ k, k <+: l → P k := by
      simp only [List.prefix_concat_iff, or_imp, forall_and, forall_eq]
    have hr : (∀ k b, k ++ [b] <+: l ++ [a] → ¬Breaks k b) ↔
        ¬Breaks l a ∧ ∀ k b, k ++ [b] <+: l → ¬Breaks k b := by
      simp only [List.prefix_concat_iff, List.append_singleton_inj, or_imp, forall_and, and_imp,
        forall_eq_apply_imp_iff, forall_eq]
    -- The last step matters only if the property has held up to it.
    rw [hl, hr, ← ih]
    exact and_congr_left fun hp => hs l a (hp l (List.prefix_refl l))

namespace Progress

structure Sound (p : Progress) : Prop where
  nodup : p.entries.Nodup
  present : ∀ c ∈ p.constraints, c.owned = true → c.entry ∈ p.entries
  exclusive : p.constraints.Pairwise fun c d => c.owned = true → d.owned = true → c.entry ≠ d.entry
  declared : ∀ c ∈ p.constraints, c.satisfied = false → c.entry.declaration ∈ p.entries.declarations
  idle : ∀ c ∈ p.constraints, c.satisfied = true → c.owned = false ∧ c.message = none

theorem sound_start : start.Sound := ⟨List.nodup_nil, by simp [start], .nil, by simp [start],
  by simp [start]⟩

theorem exclusive_symm {c d : Constraint} (h : c.owned = true → d.owned = true → c.entry ≠ d.entry)
    (hd : d.owned = true) (hc : c.owned = true) : d.entry ≠ c.entry := Ne.symm (h hc hd)

theorem Sound.perm {es : Entries} {cs ds : List Constraint} (h : Sound ⟨es, cs⟩)
    (hp : cs.Perm ds) : Sound ⟨es, ds⟩ where
  nodup := h.nodup
  present c hc := h.present c (hp.mem_iff.mpr hc)
  exclusive := (hp.pairwise_iff exclusive_symm).mp h.exclusive
  declared c hc := h.declared c (hp.mem_iff.mpr hc)
  idle c hc := h.idle c (hp.mem_iff.mpr hc)

theorem Sound.drop {p : Progress} (h : p.Sound) (c : Constraint) : (p.drop c).Sound where
  nodup := h.nodup
  present d hd := h.present d (List.mem_of_mem_erase hd)
  exclusive := h.exclusive.sublist (List.erase_sublist ..)
  declared d hd := h.declared d (List.mem_of_mem_erase hd)
  idle d hd := h.idle d (List.mem_of_mem_erase hd)

theorem Sound.grow {p : Progress} (h : p.Sound) {es : Entries} (hs : p.entries ⊆ es)
    (hn : es.Nodup) : Sound ⟨es, p.constraints⟩ where
  nodup := hn
  present c hc ho := hs (h.present c hc ho)
  exclusive := h.exclusive
  declared c hc hu := List.map_subset _ hs (h.declared c hc hu)
  idle := h.idle

theorem Sound.insert {p : Progress} (h : p.Sound) (e : Entry) : (p.insert e).Sound :=
  h.grow (p.entries.subset_insert e) (Entries.nodup_insert h.nodup e)

theorem Sound.cons {p : Progress} (h : p.Sound) {c : Constraint}
    (hp : c.owned = true → c.entry ∈ p.entries)
    (hx : ∀ d ∈ p.constraints, c.owned = true → d.owned = true → c.entry ≠ d.entry)
    (hd : c.satisfied = false → c.entry.declaration ∈ p.entries.declarations)
    (hi : c.satisfied = true → c.owned = false ∧ c.message = none) :
    Sound ⟨p.entries, c :: p.constraints⟩ where
  nodup := h.nodup
  present := List.forall_mem_cons.mpr ⟨hp, h.present⟩
  exclusive := List.pairwise_cons.mpr ⟨hx, h.exclusive⟩
  declared := List.forall_mem_cons.mpr ⟨hd, h.declared⟩
  idle := List.forall_mem_cons.mpr ⟨hi, h.idle⟩

theorem Sound.add_inserted {p : Progress} (h : p.Sound) {c : Constraint} (hs : c.satisfied = false)
    (ho : c.owned = (p.entries.insert c.entry).1) :
    (p.add (c, (p.entries.insert c.entry).2)).Sound := by
  refine (h.insert c.entry).cons (fun hc => ?_) (fun d hd hc hdo he => ?_) (fun _ => ?_)
    fun ht => ?_
  · rw [ho] at hc
    change c.entry ∈ (p.entries.insert c.entry).2
    rw [(Entries.insert_added hc).2]
    exact List.mem_append_right p.entries (List.mem_singleton_self c.entry)
  · rw [ho] at hc
    exact (Entries.insert_added hc).1 (he ▸ h.present d hd hdo)
  · exact (p.entries.covers_insert c.entry (.inl (Option.some_ne_none _))).mem_declarations
  · exact absurd (hs.symm.trans ht) Bool.false_ne_true

theorem Sound.add_declared {p : Progress} (h : p.Sound) (satisfied : Bool) (path : Path)
    (run : RunId) (origin : Origin) :
    (p.add (Constraint.declared satisfied path run origin p.entries)).Sound := by
  cases satisfied with
  | true =>
    rw [Constraint.declared_true]
    exact h.cons nofun nofun nofun fun _ => ⟨rfl, rfl⟩
  | false =>
    rw [Constraint.declared_false]
    exact h.add_inserted rfl rfl

theorem Sound.add_judged {p : Progress} (h : p.Sound) (satisfied : Bool) (path : Path)
    (run : RunId) (name : RuleName) (message : String) :
    (p.add (Constraint.judged satisfied path run name message p.entries)).Sound := by
  cases satisfied with
  | true =>
    rw [Constraint.judged_true]
    exact h.cons nofun nofun nofun fun _ => ⟨rfl, rfl⟩
  | false =>
    rw [Constraint.judged_false]
    exact h.add_inserted rfl rfl

theorem Sound.add_messaged {p : Progress} (h : p.Sound) {c : Constraint} (hc : c ∈ p.constraints)
    (message : String) : ((p.drop c).add (c.messaged message p.entries)).Sound := by
  have hp := h.perm (List.perm_cons_erase hc)
  cases hk : c.keeps message with
  | true =>
    rw [Constraint.messaged_of_keeps hk]
    exact hp
  | false =>
    rw [Constraint.messaged_of_not_keeps hk]
    let e : Entry := { c.entry with message := some message }
    have hd := h.drop c
    -- What another constraint owns is not the entry that the message goes to.
    have hx : ∀ d ∈ (p.drop c).constraints, d.owned = true → c.owned = true → d.entry ≠ c.entry :=
      fun d hd hdo hco => ((List.pairwise_cons.mp hp.exclusive).1 d hd hco hdo).symm
    have hs : Sound ⟨(p.entries.attach c.entry c.owned e).2, (p.drop c).constraints⟩ :=
      { nodup := Entries.nodup_attach h.nodup c.entry c.owned e
        present := fun d hm ho =>
          Entries.mem_attach_of_mem e (hd.present d hm ho) (hx d hm ho)
        exclusive := hd.exclusive
        declared := fun d hm hu =>
          Entries.mem_declarations_attach c.owned rfl (hd.declared d hm hu)
        idle := hd.idle }
    refine hs.cons (fun _ => ?_) (fun d hm ho hdo he => ?_) (fun _ => ?_) (fun hs => ?_)
    · exact Entries.mem_attach_self p.entries c.entry c.owned e
    · exact Entries.ne_of_attach_added ho (hd.present d hm hdo) (hx d hm hdo) he.symm
    · exact Entries.mem_declarations_of_mem (Entries.mem_attach_self p.entries c.entry c.owned e)
    · simp [Constraint.keeps, show c.satisfied = true from hs] at hk

theorem Sound.ask {p : Progress} (h : p.Sound) (run : RunId) (q : Request) :
    (p.ask run q).Sound := by
  cases q with
  | declare n satisfied origin =>
    rw [Progress.ask]
    split
    · exact h.add_declared ..
    · exact h
  | apply n r =>
    rw [Progress.ask]
    split
    · exact h.add_judged ..
    · exact h
  | otherwise c message =>
    rw [Progress.ask]
    split
    · rename_i hc
      split
      · exact h.drop c
      · exact h.add_messaged hc message
    · exact h
  | register n c =>
    rw [Progress.ask]
    split
    · exact h.insert c.entry
    · exact h
  | report n v =>
    rw [Progress.ask]
    split
    · exact h.insert (.ofViolation v)
    · exact h

end Progress

namespace World

structure Sound (w : World) : Prop where
  started : ∀ c ∈ w.constraints, c.run < w.runs.ledgers.length
  progress : w.Each Progress.Sound

theorem Sound.ask {w : World} (h : w.Sound) (q : Request) : (w.ask q).Sound where
  started := by
    intro c hc
    have hl : (w.ask q).runs.ledgers.length = w.runs.ledgers.length := by
      obtain ⟨run, es, hr⟩ := w.runs_ask q
      rw [hr, Runs.length_setEntries]
    rw [hl]
    rcases w.mem_constraints_ask hc with hc | ho
    · exact h.started c hc
    · exact Runs.lt_of_open ho
  progress := by
    intro run ho
    rw [completed_ask] at ho
    rw [progress_ask q ho]
    exact (h.progress run ho).ask run q

theorem Sound.step {w : World} (h : w.Sound) (d : Deed) : (w.step d).Sound := by
  cases d with
  | start =>
    refine ⟨fun c hc => ?_, h.progress.start Progress.sound_start h.started⟩
    have hl := h.started c hc
    simp only [World.step, Runs.start, List.length_append]
    exact Nat.lt_add_right _ hl
  | ask q => exact h.ask q
  | complete run default =>
    refine ⟨fun c hc => ?_, h.progress.complete run default⟩
    have hl := h.started c hc
    simpa [World.step, Runs.complete, Runs.setLedger] using hl

theorem sound_after (history : List Deed) : (after history).Sound := by
  -- Deeds act on the end of a history.
  induction history using List.reverseRecOn with
  | nil =>
    have hc : ∀ run, (initial.runs.ledger run).completed = true := fun _ => rfl
    exact ⟨fun c hm => absurd hm List.not_mem_nil, fun run ho => by simp [hc] at ho⟩
  | append_singleton history d ih =>
    rw [after_concat]
    exact ih.step d

end World

end Vetting
