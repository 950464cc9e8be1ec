import Vetting.Proofs.Block.Lockstep
import Vetting.Proofs.Block.Record
import Vetting.Proofs.Run.Echo

/-! Executing a block again. A block that has to do with nothing but its node and what it makes
itself finds all its entries the second time, so it leaves the collection as it is. -/

namespace Vetting

namespace Action

variable {run : RunId} {act : Action Unit} {s t : State}

theorem SelfContained.mirrors (h : act.SelfContained s) (h' : act.SelfContained t)
    (hl : ∀ base, Steps (.echo base run) act act) (ho : (s.runs.ledger run).completed = false)
    (ho' : (t.runs.ledger run).completed = false) (hn : (s.runs.ledger run).entries.Nodup)
    (hn' : (t.runs.ledger run).entries.Nodup)
    (hc : ∀ e ∈ (s.runs.ledger run).entries, (t.runs.ledger run).entries.Covers e)
    (hr : (act.run s).1 = .ok ()) :
    (act.run t).1 = .ok () ∧ ((act.run t).2.runs.ledger run).completed = false ∧
      ((act.run t).2.runs.ledger run).entries.Nodup ∧
      Entries.Mirrors (t.runs.ledger run).entries ((act.run s).2.runs.ledger run).entries
        ((act.run t).2.runs.ledger run).entries := by
  have he := h.ends h' (hl (t.runs.ledger run).entries)
    ⟨ho, ho', Progress.Echoes.start hn hn' hc⟩
  generalize act.run s = r at he hr ⊢
  generalize act.run t = r' at he ⊢
  cases he with
  | returned hm => exact ⟨rfl, hm.opened', hm.corresponds.nodup, hm.corresponds.mirrors⟩
  | halted => cases hr
  | givenUp _ _ hl => exact absurd hl id

end Action

/-- A block that acts on a node of an open run, only through that node and through what it makes
itself, leaves the same entries when it is executed twice in a row as when it is executed once. -/
theorem RuleSet.execute_twice (library : Library) (rules : RuleSet) (context : Json)
    (n : Node Content) (history : List Deed) (s : State)
    (hs : (World.after history).runs = s.runs) (ho : (s.runs.ledger n.run).completed = false)
    (h : ((rules.execute library.nested context n).run s).1 = .ok ()) :
    let block := rules.execute library.nested context n
    let once := (block.run s).2
    let twice := (block.run once).2
    block.SelfContained s → block.SelfContained once →
      (block.run once).1 = .ok () ∧
        (twice.runs.ledger n.run).entries = (once.runs.ledger n.run).entries := by
  intro block once twice hc hc'
  have hl : ∀ base, Action.Steps (.echo base n.run) block block := fun base =>
    RuleSet.steps_of_unmoved (L := .echo base n.run) (fun _ => rfl) library rules
      (Nat.le_refl Library.depthLimit) (.inr rfl) context rfl
  have hn : (s.runs.ledger n.run).entries.Nodup := by
    rw [← hs] at ho ⊢
    exact ((World.sound_after history).progress n.run ho).nodup
  -- The first execution echoes itself behind the entries that were there before.
  obtain ⟨-, ho', hn', hm⟩ := hc.mirrors hc hl ho ho hn hn (fun e he => .inl he) h
  have hb : ∀ e ∈ (s.runs.ledger n.run).entries, (once.runs.ledger n.run).entries.Covers e :=
    fun e he => .inl (hm.starts.subset he)
  obtain ⟨hr, -, hnt, hmt⟩ := hc.mirrors hc' hl ho ho' hn hn' hb h
  exact ⟨hr, hmt.eq_base hnt fun e he => .inl he⟩

def insistent : RuleSet :=
  ⟨"root", false,
    [.constrain "root" (some "held") .always 0 (.constant false) false,
      .derive "root" "name" (.key "name"),
      .apply "name" (some "missing") .present,
      .constrain "root" (some "again") .always 0 (.constant false) false,
      .otherwise "missing" "A name is needed" .unwind,
      .otherwise "again" "Refused" .unwind,
      .register "root" "held" .unwind,
      .report "root" none "Refused" .unwind]⟩

def reserved : Validator :=
  ⟨⟨"root", false, [.constrain "root" (some "again") .always 1 (.constant false) false]⟩,
    .standard, []⟩

def reservation : State := (reserved.play .null .null (Session.state [])).2

def insistentBlock : Action Unit :=
  insistent.execute (Library.nested []) .null ⟨.plain (.json .null), .root, 0⟩

def insistedOnce : State := (insistentBlock.run reservation).2

theorem insistent_twice :
    (insistedOnce.runs.ledger 0).entries.length = 5 ∧
      ((insistentBlock.run insistedOnce).2.runs.ledger 0).entries =
        (insistedOnce.runs.ledger 0).entries := by
  have hs : reservation.Faithful [] := by
    unfold reservation
    exact (reserved.play_spec .null .null (Session.faithful_state [])).1
  have ho : (reservation.runs.ledger 0).completed = false := rfl
  have h : (insistentBlock.run reservation).1 = .ok () := by decide +kernel
  have hc : insistentBlock.SelfContained reservation := by
    have hr : (insistentBlock.run { reservation with scope := .empty }).1 = .ok () := by
      decide +kernel
    exact ⟨hr.trans h.symm, by decide +kernel⟩
  have hc' : insistentBlock.SelfContained insistedOnce := by
    have h' : (insistentBlock.run insistedOnce).1 = .ok () := by decide +kernel
    have hr : (insistentBlock.run { insistedOnce with scope := .empty }).1 = .ok () := by
      decide +kernel
    exact ⟨hr.trans h'.symm, by decide +kernel⟩
  refine ⟨by decide +kernel, ?_⟩
  unfold insistedOnce at hc' ⊢
  unfold insistentBlock at h hc hc' ⊢
  exact (RuleSet.execute_twice [] insistent .null ⟨.plain (.json .null), .root, 0⟩
    reservation.deeds.toList reservation hs.runs ho h hc hc').2

end Vetting
