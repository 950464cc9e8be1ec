import Mathlib.Data.List.InsertIdx
import Vetting.Proofs.Run.Findings

/-! Who has added an entry. A constraint that owns its entry is the one that has added it: the entry
came with the request that was answered with the constraint, and neither of them has gone since.
Giving a message takes at most such an entry away, so what another constraint has added stays where
it is, and so does what has been registered or reported. -/

namespace Vetting

namespace Entries

/-- Gives the entry at a position a message: it is taken out, and `messaged` comes to its position
unless it stands elsewhere already. -/
def messageAt (es : Entries) (i : Nat) (messaged : Entry) : Bool × Entries :=
  if messaged ∈ es.eraseIdx i then (false, es.eraseIdx i)
  else (true, (es.eraseIdx i).insertIdx i messaged)

theorem replace_eq_set {es : Entries} {current : Entry} {i : Nat}
    (h : es.idxOf? current = some i) (messaged : Entry) :
    es.replace current messaged = es.set i messaged := by
  induction es generalizing i with
  | nil => simp at h
  | cons e es ih =>
    rw [List.idxOf?_cons] at h
    by_cases he : e = current
    · obtain rfl : 0 = i := by simpa [he] using h
      simp [he]
    · obtain ⟨j, hj, rfl⟩ : ∃ j, es.idxOf? current = some j ∧ j + 1 = i := by simpa [he] using h
      have hb : (current == e) = false := beq_false_of_ne (Ne.symm he)
      simp [List.replace_cons, hb, ih hj]

theorem attach_eq_messageAt {es : Entries} {current : Entry} {i : Nat}
    (h : es.idxOf? current = some i) (messaged : Entry) :
    es.attach current true messaged = es.messageAt i messaged := by
  have hc : current ∈ es := List.isSome_idxOf?.mp (by rw [h]; rfl)
  have he : es.erase current = es.eraseIdx i := by rw [List.erase_eq_eraseIdx, h]
  obtain ⟨hi, -, -⟩ := List.idxOf?_eq_some_iff.mp h
  have hr : (es.eraseIdx i).insertIdx i messaged = es.replace current messaged := by
    rw [List.insertIdx_eraseIdx_self (Nat.ne_of_lt hi), replace_eq_set h]
  rw [messageAt, hr, ← he]
  simp [attach, hc]

theorem insert_added_iff {es : Entries} {e : Entry} :
    (es.insert e).1 = true ↔ e ∉ es ∧ e ∈ (es.insert e).2 := by
  constructor
  · intro h
    obtain ⟨hn, he⟩ := insert_added h
    exact ⟨hn, by simp [he]⟩
  · rintro ⟨hn, hm⟩
    unfold insert at hm ⊢
    split
    · rename_i hs
      rw [if_pos hs] at hm
      exact absurd hm hn
    · rw [insertNew_of_not_mem hn]

end Entries

namespace Constraint

def OwnsAdded (es : Entries) (made : Constraint × Entries) : Prop :=
  made.1.owned = true ↔ made.1.entry ∉ es ∧ made.1.entry ∈ made.2

theorem ownsAdded_idle {c : Constraint} (h : c.owned = false) (es : Entries) :
    OwnsAdded es (c, es) := iff_of_false (by simp [h]) fun hc => hc.1 hc.2

theorem ownsAdded_insert {c : Constraint} {es : Entries} (h : c.owned = (es.insert c.entry).1) :
    OwnsAdded es (c, (es.insert c.entry).2) := by
  rw [OwnsAdded, h]
  exact Entries.insert_added_iff

theorem ownsAdded_declared (satisfied : Bool) (path : Path) (run : RunId) (origin : Origin)
    (es : Entries) : OwnsAdded es (declared satisfied path run origin es) := by
  cases satisfied with
  | true => exact ownsAdded_idle rfl es
  | false => exact ownsAdded_insert rfl

theorem ownsAdded_judged (satisfied : Bool) (path : Path) (run : RunId) (name : RuleName)
    (message : String) (es : Entries) :
    OwnsAdded es (judged satisfied path run name message es) := by
  cases satisfied with
  | true => exact ownsAdded_idle rfl es
  | false =>
    rw [judged_false]
    exact ownsAdded_insert rfl

theorem ownsAdded_messaged {c : Constraint} {es : Entries} (hn : es.Nodup)
    (hc : c.owned = true → c.entry ∈ es) {message : String} (hk : c.keeps message = false) :
    OwnsAdded es (c.messaged message es) := by
  rw [messaged_of_not_keeps hk]
  refine (Entries.attach_added_iff hn hc (entry_ne_of_not_keeps hk)).trans ?_
  exact (and_iff_left (Entries.mem_attach_self es c.entry c.owned _)).symm

end Constraint

namespace Request

def reply? : (q : Request) → Except Misuse q.Answer → Option Constraint
  | declare .., .ok c => some c
  | apply .., .ok c => some c
  | otherwise .., .ok c => some c
  | _, _ => none

end Request

namespace World

structure Replies (w : World) (q : Request) (c : Constraint) : Prop where
  exist : ∀ d ∈ q.addressee?, d ∈ w.constraints
  reply : q.reply? (q.perform.run w.runs).1 = some c

theorem replies_of_mem_ask {w : World} {q : Request} {c : Constraint} (hn : c ∉ w.constraints)
    (hc : c ∈ (w.ask q).constraints) : w.Replies q c := by
  have hq : ∀ d ∈ q.addressee?, d ∈ w.constraints := by
    by_contra hq
    rw [ask, if_neg hq] at hc
    exact hn hc
  refine ⟨hq, ?_⟩
  rw [ask_of_mem hq] at hc
  generalize (q.perform.run w.runs).1 = answer at hc ⊢
  have hnew : ∀ {d : Constraint} {cs : List Constraint}, cs ⊆ w.constraints → c ∈ d :: cs → d = c :=
    fun hs hc => ((List.mem_cons.mp hc).resolve_right fun hc => hn (hs hc)).symm
  cases q with
  | declare n satisfied origin =>
    cases answer with
    | error m => exact absurd hc hn
    | ok d => exact congrArg some (hnew (List.Subset.refl _) hc)
  | apply n r =>
    cases answer with
    | error m => exact absurd hc hn
    | ok d => exact congrArg some (hnew (List.Subset.refl _) hc)
  | otherwise d message =>
    cases answer with
    | error m => exact absurd (List.mem_of_mem_erase hc) hn
    | ok d' => exact congrArg some (hnew List.erase_subset hc)
  | register n d => exact absurd hc hn
  | report n v => exact absurd hc hn

theorem Sound.owned_of_replies {w : World} (h : w.Sound) {q : Request} {c : Constraint}
    (hr : w.Replies q c) :
    (w.ask q).runs = w.runs ∧ c ∈ w.constraints ∨
      (c.owned = true ↔ c.entry ∉ (w.runs.ledger c.run).entries ∧
        c.entry ∈ ((w.ask q).runs.ledger c.run).entries) := by
  obtain ⟨hq, hr⟩ := hr
  rw [ask_of_mem hq]
  cases q with
  | declare n satisfied origin =>
    cases ho : (w.runs.ledger n.run).completed with
    | true => simp [Request.perform, Node.declare, Constraint.run_declare, ho, Request.reply?] at hr
    | false =>
      rw [Request.perform_declare_of_open ho] at hr ⊢
      cases hr
      rw [Constraint.run_declared, Runs.entries_setEntries_self _ ho]
      exact .inr (Constraint.ownsAdded_declared ..)
  | apply n r =>
    cases ho : (w.runs.ledger n.run).completed with
    | true => simp [Request.perform, Node.run_apply, ho, Request.reply?] at hr
    | false =>
      rw [Request.perform_apply_of_open ho] at hr ⊢
      cases hr
      rw [Constraint.run_judged, Runs.entries_setEntries_self _ ho]
      exact .inr (Constraint.ownsAdded_judged ..)
  | otherwise d message =>
    have hd : d ∈ w.constraints := hq d rfl
    simp only [Request.perform, Constraint.run_otherwise] at hr ⊢
    cases hk : d.keeps message with
    | true =>
      simp only [hk, if_true] at hr ⊢
      cases hr
      exact .inl ⟨trivial, hd⟩
    | false =>
      cases hf : d.refuses message with
      | true => simp [hk, hf, Request.reply?] at hr
      | false =>
        cases ho : (w.runs.ledger d.run).completed with
        | true => simp [hk, hf, ho, Request.reply?] at hr
        | false =>
          have hs := h.progress d.run ho
          have hp := hs.present d (mem_constraints_progress.mpr ⟨hd, rfl⟩)
          simp only [hk, hf, ho, Bool.false_eq_true, if_false] at hr ⊢
          cases hr
          rw [Constraint.run_messaged, Runs.entries_setEntries_self _ ho]
          exact .inr (Constraint.ownsAdded_messaged hs.nodup hp hk)
  | register n d => cases hr
  | report n v => cases hr

def Stands (w : World) (c : Constraint) : Prop :=
  c ∈ w.constraints ∧ c.entry ∈ (w.runs.ledger c.run).entries

/-- The constraint has added its entry itself, by the request that was answered with it, and since
then it and the entry have both been there. -/
inductive Added : List Deed → Constraint → Prop where
  | answer {history : List Deed} {q : Request} {c : Constraint} : (after history).Replies q c →
    c.entry ∉ ((after history).runs.ledger c.run).entries →
    (after (history ++ [.ask q])).Stands c → Added (history ++ [.ask q]) c
  | stay {history : List Deed} {d : Deed} {c : Constraint} : Added history c →
    (after (history ++ [d])).Stands c → Added (history ++ [d]) c

theorem Added.owned {history : List Deed} {c : Constraint} (h : Added history c) :
    c.owned = true := by
  induction h with
  | @answer history q c hr hn hs =>
    obtain ⟨-, he⟩ := hs
    rw [after_concat] at he
    rcases (sound_after history).owned_of_replies hr with ⟨hq, -⟩ | ho
    · have hq : ((after history).step (.ask q)).runs = (after history).runs := hq
      exact absurd (hq ▸ he) hn
    · exact ho.mpr ⟨hn, he⟩
  | stay _ _ ih => exact ih

theorem open_of_open_step {w : World} {run : RunId} (hl : run < w.runs.ledgers.length) (d : Deed)
    (h : ((w.step d).runs.ledger run).completed = false) :
    (w.runs.ledger run).completed = false := by
  cases d with
  | start => rwa [step, Runs.ledger_start_ne _ (Nat.ne_of_lt hl)] at h
  | ask q => rwa [step, completed_ask] at h
  | complete other default =>
    by_cases ho : run = other
    · subst ho
      rw [step, Runs.completed_complete] at h
      cases h
    · rwa [step, Runs.ledger_complete_ne _ _ ho] at h

theorem added_of_owned {history : List Deed} {c : Constraint}
    (hc : c ∈ (after history).constraints)
    (ho : ((after history).runs.ledger c.run).completed = false) (how : c.owned = true) :
    Added history c := by
  -- The last deed has either found the constraint or been answered with it.
  induction history using List.reverseRecOn with
  | nil => exact absurd hc List.not_mem_nil
  | append_singleton history d ih =>
    have hw := sound_after history
    have hp := ((sound_after _).progress c.run ho).present c
    have hs : (after (history ++ [d])).Stands c :=
      ⟨hc, hp (mem_constraints_progress.mpr ⟨hc, rfl⟩) how⟩
    rw [after_concat] at hc ho
    by_cases hb : c ∈ (after history).constraints
    · exact .stay (ih hb (open_of_open_step (hw.started c hb) d ho)) hs
    · cases d with
      | start => exact absurd hc hb
      | complete run default => exact absurd hc hb
      | ask q =>
        have hr := replies_of_mem_ask hb hc
        refine .answer hr ?_ hs
        rcases hw.owned_of_replies hr with ⟨-, hm⟩ | hi
        · exact absurd hm hb
        · exact (hi.mp how).1

theorem added_of_removed {history : List Deed} {run : RunId}
    (ho : ((after history).runs.ledger run).completed = false) {q : Request} {e : Entry}
    (he : e ∈ ((after history).progress run).entries)
    (hn : e ∉ ((after (history ++ [.ask q])).progress run).entries) :
    ∃ c message, q = .otherwise c message ∧ c ∈ ((after history).progress run).constraints ∧
      c.entry = e ∧ Added history c := by
  have hw : ((after history).progress run).Withdraws q e := by
    by_contra hw
    rw [after_concat, step, progress_ask q ho] at hn
    exact hn (Progress.mem_ask_of_mem he hw run)
  obtain ⟨c, message, hg, how, rfl⟩ := hw
  obtain ⟨hc, rfl⟩ := mem_constraints_progress.mp hg.exist
  exact ⟨c, message, hg.asked, hg.exist, rfl, added_of_owned hc ho how⟩

/-- At every moment the collection of an open run holds no entry twice, the constraints that own
their entries find them there, and no two own the same one. So when such a constraint is given a
message, its entry has a position, and the message may come to that position; to own an entry is to
have added it; and no request takes an entry away but one that gives a message to the constraint
that has added it. -/
theorem entries_owned_once (history : List Deed) (run : RunId)
    (ho : ((after history).runs.ledger run).completed = false) :
    let p := (after history).progress run
    p.entries.Nodup ∧
    (∀ c ∈ p.constraints, c.owned = true → c.entry ∈ p.entries) ∧
    (p.constraints.Pairwise fun c d => c.owned = true → d.owned = true → c.entry ≠ d.entry) ∧
    (∀ c ∈ p.constraints, c.owned = true → ∀ messaged : Entry, ∃ i,
      p.entries.idxOf? c.entry = some i ∧ i ≤ (p.entries.eraseIdx i).length ∧
        p.entries.attach c.entry c.owned messaged = p.entries.messageAt i messaged) ∧
    (∀ c ∈ p.constraints, c.owned = true ↔ Added history c) ∧
    (∀ q : Request, ∀ e ∈ p.entries, e ∉ ((after (history ++ [.ask q])).progress run).entries →
      ∃ c message, q = .otherwise c message ∧ c ∈ p.constraints ∧ c.entry = e ∧
        Added history c) := by
  intro p
  have hp : p.Sound := (sound_after history).progress run ho
  refine ⟨hp.nodup, hp.present, hp.exclusive, fun c hc how messaged => ?_, fun c hc => ?_,
    fun q e he hn => added_of_removed ho he hn⟩
  · obtain ⟨i, hi⟩ := Option.isSome_iff_exists.mp
      (List.isSome_idxOf?.mpr (hp.present c hc how))
    obtain ⟨hl, -, -⟩ := List.idxOf?_eq_some_iff.mp hi
    refine ⟨i, hi, ?_, ?_⟩
    · rw [List.length_eraseIdx_of_lt hl]
      exact Nat.le_sub_one_of_lt hl
    · rw [how]
      exact Entries.attach_eq_messageAt hi messaged
  · obtain ⟨hcw, rfl⟩ := mem_constraints_progress.mp hc
    exact ⟨added_of_owned hcw ho, Added.owned⟩

def repeated : List Deed :=
  let root : Node Content := ⟨.plain (.json .null), .root, 0⟩
  let again : Constraint := ⟨false, .root, none, false, .site .always 0, 0, false⟩
  [.start, .ask (.declare root false (.site .always 0)),
    .ask (.declare root false (.site .always 0)), .ask (.otherwise again "Refused")]

theorem repeated_owned_once :
    let first : Constraint := ⟨false, .root, none, false, .site .always 0, 0, true⟩
    let p := (after repeated).progress 0
    (((after repeated).runs.ledger 0).completed = false ∧ first ∈ p.constraints ∧
      first.entry ∈ p.entries ∧
      first.entry ∉
        ((after (repeated ++ [.ask (.otherwise first "Refused")])).progress 0).entries) ∧
      p.entries.Nodup ∧ Added repeated first ∧
      ∃ i, p.entries.idxOf? first.entry = some i ∧ i ≤ (p.entries.eraseIdx i).length := by
  intro first p
  have ho : ((after repeated).runs.ledger 0).completed = false := by decide
  have hc : first ∈ p.constraints := by decide
  have he : first.entry ∈ p.entries := by decide
  have hn : first.entry ∉
      ((after (repeated ++ [.ask (.otherwise first "Refused")])).progress 0).entries := by decide
  obtain ⟨hnodup, -, -, hslot, -, hremoved⟩ := entries_owned_once repeated 0 ho
  obtain ⟨c, message, hq, -, -, ha⟩ := hremoved _ first.entry he hn
  obtain ⟨i, hi, hl, -⟩ := hslot first hc rfl { first.entry with message := some "Refused" }
  cases hq
  exact ⟨⟨ho, hc, he, hn⟩, hnodup, ha, i, hi, hl⟩

end World

end Vetting
