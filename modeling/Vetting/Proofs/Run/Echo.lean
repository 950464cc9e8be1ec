import Vetting.Proofs.Run.Ownership
import Vetting.Proofs.Run.Transfer

/-! One course of operations on two collections. The second collection starts from other entries,
its base, and takes what the first one takes unless the base covers it. A constraint there is an
echo of the one here: the same, but it does not own an entry that the base covers. So whatever is
done comes to the same on both sides, and the base itself is never touched. -/

namespace Vetting

namespace Entries

variable {base es fs : Entries} {e current messaged : Entry} {owned : Bool}

instance (es : Entries) (e : Entry) : Decidable (es.Covers e) :=
  inferInstanceAs (Decidable (_ ∨ _ ∧ ∃ k ∈ es, _))

theorem covers_of_message (h : e.message ≠ none) : es.Covers e ↔ e ∈ es := ⟨(·.mem h), .inl⟩

theorem prefix_attach (hb : base <+: fs) (hc : owned = true → current ∉ base) (messaged : Entry) :
    base <+: (fs.attach current owned messaged).2 := by
  obtain ⟨rest, rfl⟩ := hb
  unfold attach
  split
  · rename_i ho
    have hcb : current ∉ base := hc (Bool.and_eq_true_iff.mp ho).1
    split
    · rw [List.erase_append_right _ hcb]
      exact List.prefix_append ..
    · rw [List.replace_append_right hcb]
      exact List.prefix_append ..
  · unfold insertNew
    split
    · exact List.prefix_append ..
    · exact (List.prefix_append ..).trans (List.prefix_append ..)

/-- The collection starts with the base and goes on with what the base does not cover. -/
structure Mirrors (base es fs : Entries) : Prop where
  starts : base <+: fs
  mem_iff : ∀ e, e ∈ fs ↔ e ∈ base ∨ ¬base.Covers e ∧ e ∈ es

theorem Mirrors.covers_iff (h : Mirrors base es fs) (e : Entry) :
    fs.Covers e ↔ base.Covers e ∨ es.Covers e := by
  have hb : base ⊆ fs := h.starts.subset
  have hf : ∀ x ∈ es, base.Covers x ∨ x ∈ fs := by
    intro x hx
    by_cases hc : base.Covers x
    · exact .inl hc
    · exact .inr ((h.mem_iff x).mpr (.inr ⟨hc, hx⟩))
  have hk : ∀ k, k.message ≠ none → (k ∈ fs ↔ k ∈ base ∨ k ∈ es) := by
    intro k hm
    rw [h.mem_iff, covers_of_message hm]
    by_cases hkb : k ∈ base <;> simp [hkb]
  constructor
  · rintro (hm | ⟨hn, k, hk', hm, hd⟩)
    · rcases (h.mem_iff e).mp hm with hm | hm
      · exact .inl (.inl hm)
      · exact .inr (.inl hm.2)
    · rcases (hk k hm).mp hk' with hk' | hk'
      · exact .inl (.inr ⟨hn, k, hk', hm, hd⟩)
      · exact .inr (.inr ⟨hn, k, hk', hm, hd⟩)
  · rintro (hc | hm | ⟨hn, k, hk', hm, hd⟩)
    · exact hc.mono hb
    · exact (hf e hm).elim (·.mono hb) .inl
    · exact .inr ⟨hn, k, (hk k hm).mpr (.inr hk'), hm, hd⟩

theorem Mirrors.insert (h : Mirrors base es fs) (ho : e.origin ≠ none ∨ e.message ≠ none) :
    Mirrors base (es.insert e).2 (fs.insert e).2 ∧
      (fs.insert e).1 = ((es.insert e).1 && !decide (base.Covers e)) := by
  have hc := h.covers_iff e
  by_cases hb : base.Covers e
  · rw [insert_of_covers ho (hc.mpr (.inl hb))]
    refine ⟨⟨h.starts, fun x => (h.mem_iff x).trans (or_congr_right' fun hx => ?_)⟩, by simp [hb]⟩
    refine and_congr_right fun hn => ⟨fun hm => es.subset_insert e hm, fun hm => ?_⟩
    refine (mem_insert hm).resolve_right ?_
    rintro rfl
    exact hn hb
  · by_cases hs : es.Covers e
    · rw [insert_of_covers ho (hc.mpr (.inr hs)), insert_of_covers ho hs]
      exact ⟨h, rfl⟩
    · have hf : ¬fs.Covers e := fun hf => (hc.mp hf).elim hb hs
      rw [insert_of_not_covers hf, insert_of_not_covers hs]
      refine ⟨⟨h.starts.trans (List.prefix_append ..), fun x => ?_⟩, by simp [hb]⟩
      simp only [List.mem_append, List.mem_singleton, h.mem_iff]
      constructor
      · rintro ((hx | hx) | rfl)
        · exact .inl hx
        · exact .inr ⟨hx.1, .inl hx.2⟩
        · exact .inr ⟨hb, .inr rfl⟩
      · rintro (hx | ⟨hn, hx | rfl⟩)
        · exact .inl (.inl hx)
        · exact .inl (.inr ⟨hn, hx⟩)
        · exact .inr rfl

theorem Mirrors.attach (h : Mirrors base es fs) (hes : es.Nodup) (hfs : fs.Nodup)
    (hc : owned = true → current ∈ es) (hm : messaged.message ≠ none) (hne : messaged ≠ current)
    {owned' : Bool} (ho : owned' = true ↔ owned = true ∧ ¬base.Covers current) :
    Mirrors base (es.attach current owned messaged).2 (fs.attach current owned' messaged).2 ∧
      ((fs.attach current owned' messaged).1 = true ↔
        (es.attach current owned messaged).1 = true ∧ ¬base.Covers messaged) := by
  have hc' : owned' = true → current ∈ fs := fun h' =>
    (h.mem_iff current).mpr (.inr ⟨(ho.mp h').2, hc (ho.mp h').1⟩)
  have hb : owned' = true → current ∉ base := fun h' hx => (ho.mp h').2 (.inl hx)
  have hmb : base.Covers messaged ↔ messaged ∈ base := covers_of_message hm
  -- What the base covers is not owned in the echo, so that only what is behind it changes.
  refine ⟨⟨prefix_attach h.starts hb messaged, fun x => ?_⟩, ?_⟩
  · rw [mem_attach_iff hfs hc' hne, mem_attach_iff hes hc hne, h.mem_iff, ho]
    by_cases hxm : x = messaged
    · rw [hxm, hmb]
      exact iff_of_true (.inl rfl) ((Classical.em _).imp_right fun hn => ⟨hn, .inl rfl⟩)
    · simp only [hxm, false_or]
      constructor
      · rintro ⟨hx | ⟨hn, hx⟩, hno⟩
        · exact .inl hx
        · exact .inr ⟨hn, hx, fun h' => hno ⟨⟨h'.1, h'.2 ▸ hn⟩, h'.2⟩⟩
      · rintro (hx | ⟨hn, hx, hno⟩)
        · exact ⟨.inl hx, fun h' => h'.1.2 (.inl (h'.2 ▸ hx))⟩
        · exact ⟨.inr ⟨hn, hx⟩, fun h' => hno ⟨h'.1.1, h'.2⟩⟩
  · rw [attach_added_iff hfs hc' hne, attach_added_iff hes hc hne, h.mem_iff, hmb]
    by_cases hx : messaged ∈ base <;> simp [hx]

theorem Mirrors.eq_base (h : Mirrors base es fs) (hn : fs.Nodup) (hc : ∀ e ∈ es, base.Covers e) :
    fs = base := by
  obtain ⟨rest, rfl⟩ := h.starts
  have hr : ∀ e ∈ rest, e ∈ base := by
    intro e he
    refine ((h.mem_iff e).mp (List.mem_append_right _ he)).resolve_right ?_
    exact fun hx => hx.1 (hc e hx.2)
  have hnil : rest = [] := by
    rw [List.eq_nil_iff_forall_not_mem]
    intro e he
    exact (List.nodup_append.mp hn).2.2 e (hr e he) e he rfl
  rw [hnil, List.append_nil]

end Entries

namespace Constraint

/-- The same constraint where the entries of `base` are taken already. -/
def echo (base : Entries) (c : Constraint) : Constraint :=
  { c with owned := c.owned && !decide (base.Covers c.entry) }

theorem echo_owned_iff {base : Entries} {c : Constraint} :
    (c.echo base).owned = true ↔ c.owned = true ∧ ¬base.Covers c.entry := by
  simp [echo]

end Constraint

namespace Progress

open Entries

theorem Sound.subperm {es : Entries} {cs ds : List Constraint} (h : Sound ⟨es, cs⟩)
    (hs : ds.Subperm cs) : Sound ⟨es, ds⟩ := by
  obtain ⟨ds', hp, hs⟩ := hs
  have hds : Sound ⟨es, ds'⟩ :=
    { nodup := h.nodup
      present := fun c hc => h.present c (hs.subset hc)
      exclusive := h.exclusive.sublist hs
      declared := fun c hc => h.declared c (hs.subset hc)
      idle := fun c hc => h.idle c (hs.subset hc) }
  exact hds.perm hp

structure Echoes (base : Entries) (p : Progress) (fs : Entries) : Prop where
  sound : p.Sound
  nodup : fs.Nodup
  mirrors : Mirrors base p.entries fs

variable {base fs : Entries} {p : Progress}

theorem Echoes.start {es : Entries} (hn : es.Nodup) (hb : base.Nodup)
    (hc : ∀ e ∈ es, base.Covers e) : Echoes base ⟨es, []⟩ base where
  sound := ⟨hn, by simp, .nil, by simp, by simp⟩
  nodup := hb
  mirrors := ⟨List.prefix_refl base, fun e => ⟨.inl, fun h => h.resolve_right fun hx =>
    hx.1 (hc e hx.2)⟩⟩

theorem Echoes.insert (h : Echoes base p fs) {e : Entry} (ho : e.origin ≠ none ∨ e.message ≠ none) :
    Echoes base (p.insert e) (fs.insert e).2 :=
  ⟨h.sound.insert e, nodup_insert h.nodup e, (h.mirrors.insert ho).1⟩

theorem Echoes.declared (h : Echoes base p fs) (satisfied : Bool) (path : Path) (run : RunId)
    (origin : Origin) :
    (Constraint.declared satisfied path run origin fs).1 =
        (Constraint.declared satisfied path run origin p.entries).1.echo base ∧
      Echoes base (p.add (Constraint.declared satisfied path run origin p.entries))
        (Constraint.declared satisfied path run origin fs).2 := by
  have hs := h.sound.add_declared satisfied path run origin
  cases satisfied with
  | true => exact ⟨rfl, hs, h.nodup, h.mirrors⟩
  | false =>
    let e : Entry := ⟨path, none, some origin⟩
    obtain ⟨hm, ho⟩ := h.mirrors.insert (e := e) (.inl (Option.some_ne_none _))
    rw [Constraint.declared_false] at hs ⊢
    rw [Constraint.declared_false]
    exact ⟨by rw [ho]; rfl, hs, nodup_insert h.nodup e, hm⟩

theorem Echoes.judged (h : Echoes base p fs) (satisfied : Bool) (path : Path) (run : RunId)
    (name : RuleName) (message : String) :
    (Constraint.judged satisfied path run name message fs).1 =
        (Constraint.judged satisfied path run name message p.entries).1.echo base ∧
      Echoes base (p.add (Constraint.judged satisfied path run name message p.entries))
        (Constraint.judged satisfied path run name message fs).2 := by
  have hs := h.sound.add_judged satisfied path run name message
  cases satisfied with
  | true => exact ⟨rfl, hs, h.nodup, h.mirrors⟩
  | false =>
    let e : Entry := ⟨path, some message, some (.rule name)⟩
    obtain ⟨hm, ho⟩ := h.mirrors.insert (e := e) (.inl (Option.some_ne_none _))
    rw [Constraint.judged_false] at hs ⊢
    rw [Constraint.judged_false]
    exact ⟨by rw [ho]; rfl, hs, nodup_insert h.nodup e, hm⟩

theorem Echoes.messaged (h : Echoes base p fs) {c : Constraint} (hc : c ∈ p.constraints)
    (message : String) :
    ((c.echo base).messaged message fs).1 = (c.messaged message p.entries).1.echo base ∧
      Echoes base ((p.drop c).add (c.messaged message p.entries))
        ((c.echo base).messaged message fs).2 := by
  have hs := h.sound.add_messaged hc message
  cases hk : c.keeps message with
  | true =>
    have hk' : (c.echo base).keeps message = true := hk
    rw [Constraint.messaged_of_keeps hk] at hs ⊢
    rw [Constraint.messaged_of_keeps hk']
    exact ⟨rfl, hs, h.nodup, h.mirrors⟩
  | false =>
    have hk' : (c.echo base).keeps message = false := hk
    let e : Entry := { c.entry with message := some message }
    have hne : e ≠ c.entry := Constraint.entry_ne_of_not_keeps hk
    obtain ⟨hm, ho⟩ := h.mirrors.attach h.sound.nodup h.nodup (h.sound.present c hc)
      (Option.some_ne_none message) hne Constraint.echo_owned_iff
    rw [Constraint.messaged_of_not_keeps hk] at hs ⊢
    rw [Constraint.messaged_of_not_keeps hk']
    have ho' : (fs.attach c.entry (c.echo base).owned e).1 =
        ((p.entries.attach c.entry c.owned e).1 && !decide (base.Covers e)) := by
      rw [Bool.eq_iff_iff]
      simpa using ho
    refine ⟨?_, hs, nodup_attach h.nodup c.entry (c.echo base).owned e, hm⟩
    exact congrArg (fun o => { c with message := some message, overridable := false, owned := o })
      ho'

end Progress

theorem Mapping.constraint_echo {base : Entries} {run : RunId} {c : Constraint} (h : c.run = run) :
    Mapping.constraint ⟨run, run, id, fun c => (c.echo base).owned⟩ c = c.echo base := by
  cases c
  cases h
  rfl

def Transfer.echo (base : Entries) (run : RunId) : Transfer where
  source := run
  target := run
  place := id
  owns c := (c.echo base).owned
  corresponds := Progress.Echoes base
  lenient := False
  push _ _ := rfl
  fewer h hs := ⟨h.sound.subperm hs, h.nodup, h.mirrors⟩
  insert h ho := h.insert ho
  declared satisfied path origin h := by
    obtain ⟨he, hp⟩ := h.declared satisfied path run origin
    exact ⟨he.trans (Mapping.constraint_echo rfl).symm, hp⟩
  judged satisfied path name message h := by
    obtain ⟨he, hp⟩ := h.judged satisfied path run name message
    exact ⟨he.trans (Mapping.constraint_echo (Constraint.run_judged ..)).symm, hp⟩
  messaged message h hc hr := by
    obtain ⟨he, hp⟩ := h.messaged hc message
    rw [Mapping.constraint_echo hr,
      Mapping.constraint_echo ((Constraint.run_messaged ..).trans hr)]
    exact ⟨he, hp⟩

end Vetting
