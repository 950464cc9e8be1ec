import Mathlib.Data.List.Induction
import Vetting.Proofs.Run.World

/-! Declarations do not interfere. The entries and the constraints of one declaration are what the
requests about it bring about by themselves, and these requests are answered as if there were no
others. Requests about different declarations may therefore change places. -/

namespace Vetting

namespace Entries

variable {es : Entries} {e : Entry} {d : Declaration}

def about (es : Entries) (d : Declaration) : Entries := es.filter (·.declaration = d)

theorem mem_about : e ∈ es.about d ↔ e ∈ es ∧ e.declaration = d := by simp [about]

theorem insertNew_about (es : Entries) (h : e.declaration = d) :
    (es.about d).insertNew e = ((es.insertNew e).1, (es.insertNew e).2.about d) := by
  by_cases he : e ∈ es
  · rw [insertNew_of_mem he, insertNew_of_mem (mem_about.mpr ⟨he, h⟩)]
  · rw [insertNew_of_not_mem he, insertNew_of_not_mem fun hm => he (mem_about.mp hm).1]
    simp [about, h]

theorem about_insertNew (es : Entries) (h : e.declaration ≠ d) :
    (es.insertNew e).2.about d = es.about d := by
  unfold insertNew
  split <;> simp [about, h]

theorem insert_about (es : Entries) (h : e.declaration = d) :
    (es.about d).insert e = ((es.insert e).1, (es.insert e).2.about d) := by
  -- An entry that speaks for another is of the same declaration.
  have hs : (es.about d).any (·.speaksFor e) = es.any (·.speaksFor e) := by
    rw [Bool.eq_iff_iff, List.any_eq_true, List.any_eq_true]
    constructor
    · rintro ⟨k, hk, hke⟩
      exact ⟨k, (mem_about.mp hk).1, hke⟩
    · rintro ⟨k, hk, hke⟩
      exact ⟨k, mem_about.mpr ⟨hk, (Entry.speaksFor_iff.mp hke).2.trans h⟩, hke⟩
  unfold insert
  rw [hs]
  split
  · rfl
  · exact insertNew_about es h

theorem about_insert (es : Entries) (h : e.declaration ≠ d) :
    (es.insert e).2.about d = es.about d := by
  unfold insert
  split
  · rfl
  · exact about_insertNew es h

variable {current messaged : Entry}

theorem replace_about (hm : current ∈ es) (hc : current.declaration = d)
    (h : messaged.declaration = d) :
    (es.about d).replace current messaged = about (es.replace current messaged) d := by
  obtain ⟨before, after, hb, rfl, -, hr⟩ := exists_replace hm
  have hba : current ∉ before.about d := fun hx => hb (mem_about.mp hx).1
  have ha : about (before ++ current :: after) d = before.about d ++ current :: about after d := by
    simp [about, hc]
  rw [hr, ha, List.replace_append_right hba, List.replace_cons_self]
  simp [about, h]

theorem attach_about (es : Entries) (owned : Bool) (hc : current.declaration = d)
    (h : messaged.declaration = d) :
    (es.about d).attach current owned messaged =
      ((es.attach current owned messaged).1, (es.attach current owned messaged).2.about d) := by
  by_cases ho : owned = true ∧ current ∈ es
  · obtain ⟨rfl, hm⟩ := ho
    have he : List.erase (es.about d) current = about (List.erase es current) d :=
      List.erase_filter
    have hme : messaged ∈ about (List.erase es current) d ↔ messaged ∈ es.erase current := by
      simp [mem_about, h]
    have ha : current ∈ es.about d := mem_about.mpr ⟨hm, hc⟩
    simp only [attach, hm, ha, he, hme, decide_true, Bool.and_self, if_true]
    split
    · rfl
    · rw [replace_about hm hc h]
  · have hn : owned = false ∨ current ∉ es := by
      simpa [imp_iff_not_or] using ho
    rw [attach_of_not_owned hn, attach_of_not_owned (hn.imp_right fun hm hx =>
      hm (mem_about.mp hx).1), insertNew_about es h]

theorem about_attach (es : Entries) (owned : Bool) (hc : current.declaration ≠ d)
    (h : messaged.declaration ≠ d) :
    (es.attach current owned messaged).2.about d = es.about d := by
  unfold attach
  split
  · rename_i ho
    obtain ⟨before, after, -, rfl, he, hr⟩ :=
      exists_replace (by simpa using (Bool.and_eq_true_iff.mp ho).2 : current ∈ es)
    rw [he, hr]
    split <;> simp [about, hc, h]
  · exact about_insertNew es h

end Entries

namespace Runs

variable (rs : Runs) (run : RunId) (d : Declaration)

def about : Runs := ⟨rs.ledgers.map fun l => { l with entries := l.entries.about d }⟩

theorem ledger_about :
    (rs.about d).ledger run =
      { rs.ledger run with entries := (rs.ledger run).entries.about d } := by
  simp only [about, ledger, List.getElem?_map]
  cases rs.ledgers[run]? <;> rfl

theorem completed_about : ((rs.about d).ledger run).completed = (rs.ledger run).completed := by
  rw [ledger_about]

theorem entries_about : ((rs.about d).ledger run).entries = (rs.ledger run).entries.about d := by
  rw [ledger_about]

theorem about_setEntries (es : Entries) :
    (rs.setEntries run es).about d = (rs.about d).setEntries run (es.about d) := by
  simp only [setEntries, setLedger, ledger_about]
  simp only [about, List.map_set]

theorem about_setEntries_of_eq {es : Entries}
    (h : es.about d = (rs.ledger run).entries.about d) :
    (rs.setEntries run es).about d = rs.about d := by
  rw [about_setEntries, h, ← entries_about, setEntries_self]

theorem about_start : rs.start.2.about d = (rs.about d).start.2 := by
  simp [about, start, Ledger.empty, Entries.about]

theorem about_complete (default : String) :
    (rs.complete run default).2.about d = ((rs.about d).complete run default).2 := by
  simp [about, complete, setLedger, Ledger.closed, Entries.about, List.map_set]

end Runs

namespace Constraint

variable (es : Entries) {d : Declaration}

theorem declared_about {path : Path} {origin : Origin} (h : (path, some origin) = d)
    (satisfied : Bool) (run : RunId) :
    declared satisfied path run origin (es.about d) =
      ((declared satisfied path run origin es).1,
        (declared satisfied path run origin es).2.about d) := by
  cases satisfied with
  | true => simp only [declared_true]
  | false => simp only [declared_false, Entries.insert_about (e := ⟨path, none, some origin⟩) es h]

theorem about_declared {path : Path} {origin : Origin} (h : (path, some origin) ≠ d)
    (satisfied : Bool) (run : RunId) :
    (declared satisfied path run origin es).2.about d = es.about d := by
  cases satisfied with
  | true => rfl
  | false => exact Entries.about_insert (e := ⟨path, none, some origin⟩) es h

theorem judged_about {path : Path} {name : RuleName} (h : (path, some (.rule name)) = d)
    (satisfied : Bool) (run : RunId) (message : String) :
    judged satisfied path run name message (es.about d) =
      ((judged satisfied path run name message es).1,
        (judged satisfied path run name message es).2.about d) := by
  cases satisfied with
  | true => simp only [judged_true]
  | false =>
    simp only [judged_false,
      Entries.insert_about (e := ⟨path, some message, some (.rule name)⟩) es h]

theorem about_judged {path : Path} {name : RuleName} (h : (path, some (.rule name)) ≠ d)
    (satisfied : Bool) (run : RunId) (message : String) :
    (judged satisfied path run name message es).2.about d = es.about d := by
  cases satisfied with
  | true => rfl
  | false =>
    rw [judged_false]
    exact Entries.about_insert (e := ⟨path, some message, some (.rule name)⟩) es h

theorem messaged_about {c : Constraint} (h : c.entry.declaration = d) (message : String) :
    c.messaged message (es.about d) =
      ((c.messaged message es).1, (c.messaged message es).2.about d) := by
  cases hk : c.keeps message with
  | true => simp only [messaged_of_keeps hk]
  | false =>
    have hm : ({ c.entry with message := some message } : Entry).declaration = d := h
    simp only [messaged_of_not_keeps hk, Entries.attach_about es c.owned h hm]

theorem about_messaged {c : Constraint} (h : c.entry.declaration ≠ d) (message : String) :
    (c.messaged message es).2.about d = es.about d := by
  cases hk : c.keeps message with
  | true => rw [messaged_of_keeps hk]
  | false =>
    have hm : ({ c.entry with message := some message } : Entry).declaration ≠ d := h
    rw [messaged_of_not_keeps hk]
    exact Entries.about_attach es c.owned h hm

theorem declaration_messaged (c : Constraint) (message : String) :
    (c.messaged message es).1.entry.declaration = c.entry.declaration := by
  unfold messaged
  split <;> rfl

theorem declaration_judged (satisfied : Bool) (path : Path) (run : RunId) (name : RuleName)
    (message : String) :
    (judged satisfied path run name message es).1.entry.declaration =
      (path, some (.rule name)) := by
  cases satisfied with
  | true => rfl
  | false =>
    rw [judged_false]
    rfl

end Constraint

namespace Request

def declaration : Request → Declaration
  | .declare n _ origin => (n.path, some origin)
  | .apply n rule => (n.path, some (.rule rule.name))
  | .otherwise c _ => c.entry.declaration
  | .register _ c => c.entry.declaration
  | .report _ v => (v.path, none)

variable {q : Request} {d : Declaration}

theorem perform_about (h : q.declaration = d) (rs : Runs) :
    q.perform.run (rs.about d) = ((q.perform.run rs).1, (q.perform.run rs).2.about d) := by
  cases q with
  | declare n satisfied origin =>
    simp only [perform, Node.declare, Constraint.run_declare, Runs.completed_about,
      Runs.entries_about, Constraint.declared_about _ h]
    split
    · rfl
    · rw [Runs.about_setEntries]
  | apply n rule =>
    simp only [perform, Node.run_apply, Runs.completed_about, Runs.entries_about,
      Constraint.judged_about _ h]
    split
    · rfl
    · rw [Runs.about_setEntries]
  | otherwise c message =>
    simp only [perform, Constraint.run_otherwise, Runs.completed_about, Runs.entries_about,
      Constraint.messaged_about _ h]
    repeat' split
    all_goals first | rfl | rw [Runs.about_setEntries]
  | register n c =>
    simp only [perform, Node.run_register, Runs.completed_about, Runs.entries_about,
      Entries.insert_about (e := c.entry) _ h]
    repeat' split
    all_goals first | rfl | rw [Runs.about_setEntries]
  | report n v =>
    simp only [perform, Node.run_report, Runs.completed_about, Runs.entries_about,
      Entries.insert_about (e := .ofViolation v) _ h]
    split
    · rfl
    · rw [Runs.about_setEntries]

theorem about_perform (h : q.declaration ≠ d) (rs : Runs) :
    (q.perform.run rs).2.about d = rs.about d := by
  cases q with
  | declare n satisfied origin =>
    simp only [perform, Node.declare, Constraint.run_declare]
    split
    · rfl
    · exact rs.about_setEntries_of_eq _ d (Constraint.about_declared _ h _ _)
  | apply n rule =>
    simp only [perform, Node.run_apply]
    split
    · rfl
    · exact rs.about_setEntries_of_eq _ d (Constraint.about_judged _ h _ _ _)
  | otherwise c message =>
    simp only [perform, Constraint.run_otherwise]
    repeat' split
    all_goals
      first | rfl | exact rs.about_setEntries_of_eq _ d (Constraint.about_messaged _ h message)
  | register n c =>
    simp only [perform, Node.run_register]
    repeat' split
    all_goals
      first | rfl | exact rs.about_setEntries_of_eq _ d (Entries.about_insert (e := c.entry) _ h)
  | report n v =>
    simp only [perform, Node.run_report]
    split
    · rfl
    · exact rs.about_setEntries_of_eq _ d (Entries.about_insert (e := .ofViolation v) _ h)

end Request

namespace Constraint

def about (cs : List Constraint) (d : Declaration) : List Constraint :=
  cs.filter (·.entry.declaration = d)

variable {cs : List Constraint} {c : Constraint} {d : Declaration}

theorem mem_about : c ∈ about cs d ↔ c ∈ cs ∧ c.entry.declaration = d := by simp [about]

theorem about_cons_of_eq (h : c.entry.declaration = d) : about (c :: cs) d = c :: about cs d :=
  List.filter_cons_of_pos (decide_eq_true h)

theorem about_cons_of_ne (h : c.entry.declaration ≠ d) : about (c :: cs) d = about cs d :=
  List.filter_cons_of_neg (mt of_decide_eq_true h)

theorem about_erase : about (cs.erase c) d = (about cs d).erase c := List.erase_filter.symm

theorem about_erase_of_ne (h : c.entry.declaration ≠ d) : about (cs.erase c) d = about cs d := by
  rw [about_erase]
  exact List.erase_of_not_mem fun hm => h (mem_about.mp hm).2

end Constraint

namespace Request

variable {q : Request} {d : Declaration}

theorem leave_about (h : q.declaration = d) (rs : Runs) (cs : List Constraint) :
    Constraint.about (q.leave (q.perform.run rs).1 cs) d =
      q.leave (q.perform.run rs).1 (Constraint.about cs d) := by
  cases q with
  | declare n satisfied origin =>
    simp only [perform, Node.declare, Constraint.run_declare]
    split
    · rfl
    · exact Constraint.about_cons_of_eq h
  | apply n rule =>
    simp only [perform, Node.run_apply]
    split
    · rfl
    · exact Constraint.about_cons_of_eq ((Constraint.declaration_judged ..).trans h)
  | otherwise c message =>
    simp only [perform, Constraint.run_otherwise]
    repeat' split
    · exact (Constraint.about_cons_of_eq h).trans (congrArg _ Constraint.about_erase)
    · exact Constraint.about_erase
    · exact Constraint.about_erase
    · exact (Constraint.about_cons_of_eq ((Constraint.declaration_messaged ..).trans h)).trans
        (congrArg _ Constraint.about_erase)
  | register n c =>
    simp only [perform, Node.run_register]
    repeat' split
    all_goals rfl
  | report n v =>
    simp only [perform, Node.run_report]
    split <;> rfl

theorem about_leave (h : q.declaration ≠ d) (rs : Runs) (cs : List Constraint) :
    Constraint.about (q.leave (q.perform.run rs).1 cs) d = Constraint.about cs d := by
  cases q with
  | declare n satisfied origin =>
    simp only [perform, Node.declare, Constraint.run_declare]
    split
    · rfl
    · exact Constraint.about_cons_of_ne h
  | apply n rule =>
    simp only [perform, Node.run_apply]
    split
    · rfl
    · exact Constraint.about_cons_of_ne ((Constraint.declaration_judged ..).trans_ne h)
  | otherwise c message =>
    have hc : c.entry.declaration ≠ d := h
    have he : Constraint.about (cs.erase c) d = Constraint.about cs d :=
      Constraint.about_erase_of_ne hc
    simp only [perform, Constraint.run_otherwise]
    repeat' split
    · exact (Constraint.about_cons_of_ne hc).trans he
    · exact he
    · exact he
    · exact (Constraint.about_cons_of_ne ((Constraint.declaration_messaged ..).trans_ne hc)).trans
        he
  | register n c =>
    simp only [perform, Node.run_register]
    repeat' split
    all_goals rfl
  | report n v =>
    simp only [perform, Node.run_report]
    split <;> rfl

theorem declaration_of_addressee? {c : Constraint} (h : q.addressee? = some c) :
    c.entry.declaration = q.declaration := by
  cases q <;> cases h <;> rfl

end Request

/-- Whether a deed bears on a declaration: the start and the end of a run always do. -/
def Deed.concerns (d : Declaration) : Deed → Bool
  | .ask q => q.declaration = d
  | _ => true

namespace World

def about (w : World) (d : Declaration) : World :=
  ⟨w.runs.about d, Constraint.about w.constraints d⟩

theorem ask_about {q : Request} {d : Declaration} (h : q.declaration = d) (w : World) :
    (w.about d).ask q = (w.ask q).about d := by
  have hm : (∀ c ∈ q.addressee?, c ∈ (w.about d).constraints) ↔
      ∀ c ∈ q.addressee?, c ∈ w.constraints := by
    refine forall₂_congr fun c hc => ?_
    simp [about, Constraint.about, (Request.declaration_of_addressee? hc).trans h]
  unfold ask
  by_cases he : ∀ c ∈ q.addressee?, c ∈ w.constraints
  · rw [if_pos he, if_pos (hm.mpr he)]
    simp only [about, Request.perform_about h, Request.leave_about h]
  · rw [if_neg he, if_neg (mt hm.mp he)]

theorem about_ask {q : Request} {d : Declaration} (h : q.declaration ≠ d) (w : World) :
    (w.ask q).about d = w.about d := by
  unfold ask
  split
  · simp only [about, Request.about_perform h, Request.about_leave h]
  · rfl

theorem after_filter (history : List Deed) (d : Declaration) :
    after (history.filter (·.concerns d)) = (after history).about d := by
  induction history using List.reverseRecOn with
  | nil => rfl
  | append_singleton history deed ih =>
    rw [List.filter_append, after_concat]
    cases deed with
    | start =>
      rw [List.filter_cons_of_pos rfl, List.filter_nil, after_concat, ih]
      simp only [step, about, Runs.about_start]
    | complete run default =>
      rw [List.filter_cons_of_pos rfl, List.filter_nil, after_concat, ih]
      simp only [step, about, Runs.about_complete]
    | ask q =>
      by_cases hq : q.declaration = d
      · have hc : Deed.concerns d (.ask q) = true := decide_eq_true hq
        rw [List.filter_cons_of_pos hc, List.filter_nil, after_concat, ih]
        exact ask_about hq _
      · have hc : ¬Deed.concerns d (.ask q) = true := mt of_decide_eq_true hq
        rw [List.filter_cons_of_neg hc, List.filter_nil, List.append_nil, ih]
        exact (about_ask hq _).symm

theorem answer_about {q : Request} {d : Declaration} (h : q.declaration = d) (w : World) :
    (q.perform.run (w.about d).runs).1 = (q.perform.run w.runs).1 := by
  rw [about, Request.perform_about h]

theorem after_filter_swap {q r : Request} (h : q.declaration ≠ r.declaration) (d : Declaration)
    (history more : List Deed) :
    (history ++ .ask q :: .ask r :: more).filter (·.concerns d) =
      (history ++ .ask r :: .ask q :: more).filter (·.concerns d) := by
  -- One of the two at most bears on the declaration.
  by_cases hq : q.declaration = d
  · have hr : r.declaration ≠ d := fun hr => h (hq.trans hr.symm)
    simp [List.filter_cons, Deed.concerns, hr]
  · simp [List.filter_cons, Deed.concerns, hq]

/-- What there is of a declaration, its entries in their order and its constraints with their
messages, is what the requests about it bring about by themselves, which get the same answers.
Two requests in a row about different declarations may be swapped: neither changes the answer of the
other, and whatever follows, each declaration has the same entries and constraints and each request
the same answer. -/
theorem declarations_apart (history : List Deed) :
    (∀ d : Declaration,
      let part := history.filter (·.concerns d)
      (∀ run, ((after history).runs.ledger run).entries.about d =
        ((after part).runs.ledger run).entries) ∧
      Constraint.about (after history).constraints d = (after part).constraints ∧
      ∀ q : Request, q.declaration = d →
        (q.perform.run (after history).runs).1 = (q.perform.run (after part).runs).1) ∧
    ∀ q r : Request, q.declaration ≠ r.declaration →
      (q.perform.run (after (history ++ [.ask r])).runs).1 =
        (q.perform.run (after history).runs).1 ∧
      ∀ more : List Deed,
        let w := after (history ++ .ask q :: .ask r :: more)
        let w' := after (history ++ .ask r :: .ask q :: more)
        (∀ d run, (w.runs.ledger run).entries.about d = (w'.runs.ledger run).entries.about d) ∧
        (∀ d, Constraint.about w.constraints d = Constraint.about w'.constraints d) ∧
        ∀ p : Request, (p.perform.run w.runs).1 = (p.perform.run w'.runs).1 := by
  refine ⟨fun d => ?_, fun q r h => ⟨?_, fun more => ?_⟩⟩
  · intro part
    have hp : after part = (after history).about d := after_filter history d
    refine ⟨fun run => ?_, ?_, fun q hq => ?_⟩
    · rw [hp, about, Runs.entries_about]
    · rw [hp, about]
    · rw [hp, answer_about hq]
  · have hr : ((after history).ask r).about q.declaration = (after history).about q.declaration :=
      about_ask h.symm _
    rw [after_concat, step, ← answer_about rfl, hr, answer_about rfl]
  · intro w w'
    have hw : ∀ d, w.about d = w'.about d := by
      intro d
      rw [← after_filter, ← after_filter, after_filter_swap h d history more]
    refine ⟨fun d run => ?_, fun d => congrArg World.constraints (hw d), fun p => ?_⟩
    · rw [← Runs.entries_about, ← Runs.entries_about]
      exact congrArg (fun v : World => (v.runs.ledger run).entries) (hw d)
    · rw [← answer_about rfl w, hw, answer_about rfl]

def rootRefused : Request := .declare ⟨.plain (.json .null), .root, 0⟩ false (.site .always 0)

def childRefused : Request :=
  .declare ⟨.plain (.json .null), Path.root.push "child", 0⟩ false (.site .always 1)

/-- Gives the refusal of the root its message. -/
def rootAnswered : Request :=
  .otherwise ⟨false, .root, none, false, .site .always 0, 0, true⟩ "Refused"

def interleaved (first second : Request) : List Deed :=
  [.start, .ask first, .ask second, .ask rootAnswered]

theorem interleaved_apart :
    let d : Declaration := (.root, some (.site .always 0))
    let part := (interleaved rootRefused childRefused).filter (·.concerns d)
    let entries := ((after (interleaved rootRefused childRefused)).runs.ledger 0).entries
    let entries' := ((after (interleaved childRefused rootRefused)).runs.ledger 0).entries
    let root : Entry := ⟨.root, some "Refused", some (.site .always 0)⟩
    let child : Entry := ⟨Path.root.push "child", none, some (.site .always 1)⟩
    (entries = [root, child] ∧ entries' = [child, root]) ∧
      (part.length = 3 ∧ ((after part).runs.ledger 0).entries = [root] ∧
        entries.about d = ((after part).runs.ledger 0).entries) ∧
      (childRefused.perform.run (after [.start, .ask rootRefused]).runs).1 =
        (childRefused.perform.run (after [.start]).runs).1 ∧
      ∀ d, entries.about d = entries'.about d := by
  intro d part entries entries' root child
  have hp := (declarations_apart (interleaved rootRefused childRefused)).1 d
  have hs := (declarations_apart [.start]).2
  have hd : rootRefused.declaration ≠ childRefused.declaration := by decide
  have hm := (hs rootRefused childRefused hd).2 [.ask rootAnswered]
  refine ⟨⟨?_, ?_⟩, ⟨?_, ?_, hp.1 0⟩, (hs childRefused rootRefused hd.symm).1, fun d => hm.1 d 0⟩
  all_goals decide

end World

end Vetting
