import Vetting.Proofs.Paths
import Vetting.Proofs.Run.Renaming
import Vetting.Proofs.Run.Transfer

/-! Putting a run below a path. Every place of it is put below the path, so equal places stay equal
and different ones different; all that is done to a collection commutes with that. -/

namespace Vetting

theorem Misuse.placed_root (m : Misuse) : m.placed (Path.root ++ ·) = m := by
  cases m <;> simp only [placed, Path.root_append]

theorem Mapping.entry_renames {m : Mapping} (hm : Function.Injective m.place) :
    Entry.Renames m.entry where
  injective := by
    rintro ⟨p, message, origin⟩ ⟨q, message', origin'⟩ h
    injection h with hp hmessage horigin
    cases hm hp
    cases hmessage
    cases horigin
    rfl
  message _ := rfl
  origin _ := rfl
  speaksFor e pending := by
    rw [Bool.eq_iff_iff, Entry.speaksFor_iff, Entry.speaksFor_iff]
    simp only [Entry.declaration, Mapping.entry, Prod.mk.injEq, hm.eq_iff]

def Mapping.below (p : Path) (source target : RunId) : Mapping :=
  ⟨source, target, (p ++ ·), Constraint.owned⟩

theorem Mapping.below_renames (p : Path) (source target : RunId) :
    Entry.Renames (below p source target).entry := entry_renames p.append_injective

theorem Mapping.below_node_root (p : Path) (source target : RunId) (c : Content) (run : RunId) :
    (below p source target).node ⟨c, .root, run⟩ = ⟨c, p, target⟩ :=
  congrArg (Node.mk c · target) p.append_root

theorem Mapping.below_root_node (source target : RunId) (n : Node Content) :
    (below .root source target).node n = { n with run := target } :=
  congrArg (Node.mk n.value · target) n.path.root_append

/-- The same run with its root put below a path, and as another run. Its rules may be given up
earlier, if that is let pass. -/
def Transfer.relocation (p : Path) (source target : RunId) (lenient : Prop) : Transfer where
  toMapping := .below p source target
  corresponds progress fs := fs = progress.entries.map (Mapping.below p source target).entry
  lenient := lenient
  push := p.append_push
  fewer h _ := h
  insert := by
    rintro ⟨es, cs⟩ fs e rfl -
    exact congrArg Prod.snd (Entries.insert_map (Mapping.below_renames p source target) es e)
  declared := by
    rintro ⟨es, cs⟩ fs satisfied path origin rfl
    cases satisfied with
    | true => exact ⟨rfl, rfl⟩
    | false =>
      have hi := Entries.insert_map (Mapping.below_renames p source target) es
        ⟨path, none, some origin⟩
      have ho := congrArg Prod.fst hi
      rw [Constraint.declared_false, Constraint.declared_false]
      exact ⟨congrArg (Constraint.mk false (p ++ path) none false origin target) ho,
        congrArg Prod.snd hi⟩
  judged := by
    rintro ⟨es, cs⟩ fs satisfied path name message rfl
    cases satisfied with
    | true => exact ⟨rfl, rfl⟩
    | false =>
      have hi := Entries.insert_map (Mapping.below_renames p source target) es
        ⟨path, some message, some (.rule name)⟩
      have ho := congrArg Prod.fst hi
      rw [Constraint.judged_false, Constraint.judged_false]
      exact ⟨congrArg (Constraint.mk false (p ++ path) (some message) true (.rule name) target) ho,
        congrArg Prod.snd hi⟩
  messaged := by
    rintro ⟨es, cs⟩ fs c message rfl - -
    let m : Mapping := .below p source target
    cases hk : c.keeps message with
    | true =>
      have hk' : (m.constraint c).keeps message = true := hk
      rw [Constraint.messaged_of_keeps hk, Constraint.messaged_of_keeps hk']
      exact ⟨rfl, rfl⟩
    | false =>
      have hk' : (m.constraint c).keeps message = false := hk
      have ha := Entries.attach_map (Mapping.below_renames p source target) es c.entry
        { c.entry with message := some message } c.owned
      rw [Constraint.messaged_of_not_keeps hk, Constraint.messaged_of_not_keeps hk']
      refine ⟨?_, congrArg Prod.snd ha⟩
      exact congrArg (fun owned => { m.constraint c with
        message := some message, overridable := false, owned }) (congrArg Prod.fst ha)

end Vetting
