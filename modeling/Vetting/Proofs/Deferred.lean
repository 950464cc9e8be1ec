import Vetting.Proofs.Offers

/-! Messages that come late. When no two unsatisfied constraints are of one declaration, each keeps
its place whenever its messages come: the report lists what was found in the order in which it was
found, every constraint with the last message that it has taken. Which message that is depends on
the messages offered to that constraint alone, so offers to different constraints may come in any
order. -/

namespace Vetting

theorem Entries.attach_eq_map {es : Entries} {current messaged : Entry} (hn : es.Nodup)
    (hc : current ∈ es) (hd : messaged.declaration = current.declaration)
    (hne : messaged ≠ current)
    (hu : ∀ e ∈ es, e.declaration = current.declaration → e = current) :
    es.attach current true messaged =
      (true, es.map fun e => if e = current then messaged else e) := by
  obtain ⟨before, after, rfl, hca, ha⟩ := attach_of_owned hn hc messaged
  -- Any other entry is of another declaration, so the message stands nowhere else.
  have hm : messaged ∉ before ++ after := by
    intro hm
    refine hne (hu messaged ?_ hd)
    simpa [hne] using hm
  have keep : ∀ l : List Entry, current ∉ l →
      l.map (fun e => if e = current then messaged else e) = l := by
    intro l hl
    have he : ∀ e ∈ l, (if e = current then messaged else e) = e := fun e he =>
      if_neg (ne_of_mem_of_not_mem he hl)
    rw [List.map_congr_left he, List.map_id']
  simp only [List.mem_append, not_or] at hca
  rw [ha, if_neg hm, List.map_append, List.map_cons, if_pos rfl, keep before hca.1,
    keep after hca.2]

namespace Progress

open Request

structure Holds (run : RunId) (qs : List Request) (c : Constraint) (e : Entry) : Prop where
  owned : c.owned = true
  entry : c.entry = said run qs e
  overridable : c.overridable = true ↔ c.message = e.message ∧ e.message ≠ none

/-- Where a run without two constraints of one declaration stands. -/
structure Deferred (run : RunId) (qs : List Request) : Prop where
  entries : (after run qs).entries = (findings run qs).eraseDups.map (said run qs)
  held : ∀ c ∈ (after run qs).constraints, c.satisfied = false →
    ∃ e ∈ failures run qs, Holds run qs c e
  settled : ∀ e ∈ failures run qs,
    (said run qs e).message = e.settle (offered run qs e.declaration)

variable {run : RunId} {qs : List Request} {q : Request}

theorem Holds.of_said {c : Constraint} {e : Entry} (h : Holds run qs c e) {qs' : List Request}
    (hs : said run qs' e = said run qs e) : Holds run qs' c e :=
  ⟨h.owned, h.entry.trans hs.symm, h.overridable⟩

theorem Holds.declaration {c : Constraint} {e : Entry} (h : Holds run qs c e) :
    c.entry.declaration = e.declaration := by rw [h.entry, declaration_said]

theorem Holds.message {c : Constraint} {e : Entry} (h : Holds run qs c e) :
    c.message = (said run qs e).message := congrArg Entry.message h.entry

theorem Deferred.mem_declarations (h : Deferred run qs) {d : Declaration}
    (hd : d ∈ (after run qs).entries.declarations) : ∃ e ∈ findings run qs, e.declaration = d := by
  rw [h.entries] at hd
  obtain ⟨x, hx, rfl⟩ := Entries.mem_declarations.mp hd
  obtain ⟨e, he, rfl⟩ := List.mem_map.mp hx
  exact ⟨e, List.mem_eraseDups.mp he, rfl⟩

theorem Deferred.idle (h : Deferred run qs) (hf : q.finding? run = none)
    (ho : (after run qs).offer? q = none)
    (he : (after run (qs ++ [q])).entries = (after run qs).entries)
    (hc : ∀ c ∈ (after run (qs ++ [q])).constraints, c.satisfied = false →
      c ∈ (after run qs).constraints) : Deferred run (qs ++ [q]) := by
  have hs := said_of_none ho
  have hff : failures run (qs ++ [q]) = failures run qs := by
    rw [failures_concat, (finding?_eq_none.mp hf).1, Option.toList_none, List.append_nil]
  refine ⟨?_, fun c hm hu => ?_, ?_⟩
  · rw [he, h.entries, findings_concat, hf, Option.toList_none, List.append_nil, hs]
  · obtain ⟨e, hem, hh⟩ := h.held c (hc c hm hu) hu
    exact ⟨e, hff ▸ hem, hh.of_said (congrFun hs e)⟩
  · rw [hff, hs, offered_of_none ho]
    exact h.settled

theorem Deferred.same (h : Deferred run qs) (hf : q.finding? run = none)
    (ho : (after run qs).offer? q = none) (ha : after run (qs ++ [q]) = after run qs) :
    Deferred run (qs ++ [q]) := by
  refine h.idle hf ho ?_ ?_ <;> rw [ha]
  exact fun d hd _ => hd

theorem Deferred.satisfied (h : Deferred run qs) (hf : q.finding? run = none)
    (ho : (after run qs).offer? q = none) {c : Constraint} (hc : c.satisfied = true)
    (ha : after run (qs ++ [q]) = (after run qs).add (c, (after run qs).entries)) :
    Deferred run (qs ++ [q]) := by
  refine h.idle hf ho ?_ ?_ <;> rw [ha]
  · rfl
  · intro d hd hu
    refine (List.mem_cons.mp hd).resolve_left ?_
    rintro rfl
    exact Bool.false_ne_true (hu.symm.trans hc)

theorem Deferred.fail (h : Deferred run qs) {c : Constraint}
    (ha : after run (qs ++ [q]) = (after run qs).add (c, ((after run qs).entries.insert c.entry).2))
    (hf : q.failure? run = some c.entry)
    (hn : c.entry.declaration ∉ (failures run qs).declarations)
    (ho : (after run qs).offer? q = none)
    (hw : c.owned = ((after run qs).entries.insert c.entry).1)
    (hv : c.overridable = c.message.isSome) : Deferred run (qs ++ [q]) := by
  have hs := said_of_none ho
  have hff : failures run (qs ++ [q]) = failures run qs ++ [c.entry] := by
    rw [failures_concat, hf, Option.toList_some]
  have hse : said run qs c.entry = c.entry := said_of_not_mem hn
  have hnf : ∀ e ∈ findings run qs, e.declaration ≠ c.entry.declaration := by
    intro e he hd
    have heo : e.origin ≠ none := (congrArg Prod.snd hd).trans_ne (Option.some_ne_none _)
    exact hn (hd ▸ Entries.mem_declarations_of_mem (mem_failures_of_mem_findings he heo))
  have hcv : ¬(after run qs).entries.Covers c.entry := by
    intro hcv
    obtain ⟨e, he, hd⟩ := h.mem_declarations hcv.mem_declarations
    exact hnf e he hd
  have hi := Entries.insert_of_not_covers hcv
  refine ⟨?_, fun d hd hu => ?_, fun e he => ?_⟩
  · rw [ha, findings_concat, finding?, hf, Option.some_or, Option.toList_some, eraseDups_concat,
      if_neg fun hm => hnf _ hm rfl, List.map_append, hs, ← h.entries, List.map_singleton, hse]
    exact congrArg Prod.snd hi
  · rw [hff]
    rw [ha] at hd
    rcases List.mem_cons.mp hd with rfl | hd
    · refine ⟨_, List.mem_append_right _ (List.mem_singleton_self _), ?_, hs ▸ hse.symm, ?_⟩
      · rw [hw, hi]
      · rw [hv, Option.isSome_iff_ne_none]
        exact ⟨fun hm => ⟨rfl, hm⟩, And.right⟩
    · obtain ⟨e, he, hh⟩ := h.held d hd hu
      exact ⟨e, List.mem_append_left _ he, hh.of_said (congrFun hs e)⟩
  · rw [hs, offered_of_none ho]
    rw [hff] at he
    rcases List.mem_append.mp he with he | he
    · exact h.settled e he
    · cases List.mem_singleton.mp he
      rw [hse, offered_of_not_mem hn]
      rfl

theorem Deferred.report (h : Deferred run qs) {n : Node Content} (hr : n.run = run)
    (v : Violation) : Deferred run (qs ++ [.report n v]) := by
  have ho : (after run qs).offer? (.report n v) = none := rfl
  have hs := said_of_none ho
  have hf : finding? run (.report n v) = some (.ofViolation v) := by rw [finding?_report, if_pos hr]
  have ha : after run (qs ++ [.report n v]) = (after run qs).insert (.ofViolation v) := by
    rw [after_concat, ask, if_pos hr]
  have hff : failures run (qs ++ [.report n v]) = failures run qs := by
    simp [failures_concat, failure?]
  have hm : Entry.ofViolation v ∈ (after run qs).entries ↔
      Entry.ofViolation v ∈ findings run qs := by
    rw [h.entries, List.mem_map]
    constructor
    · rintro ⟨e, he, hev⟩
      have hem := List.mem_eraseDups.mp he
      have hd : e.declaration = (v.path, none) := congrArg Entry.declaration hev
      have hne : said run qs e = e := by
        refine said_of_not_mem fun hx => ?_
        obtain ⟨f, hx, hfd⟩ := Entries.mem_declarations.mp hx
        exact origin_of_mem_failures hx (congrArg Prod.snd (hfd.trans hd))
      rwa [← hev, hne]
    · exact fun he => ⟨_, List.mem_eraseDups.mpr he, said_ofViolation run qs v⟩
  have hi : ((after run qs).entries.insert (.ofViolation v)).2 =
      (after run qs).entries ++ if Entry.ofViolation v ∈ findings run qs then []
        else [Entry.ofViolation v] := by
    rw [Entries.insert_of_message (Option.some_ne_none _)]
    by_cases hv : Entry.ofViolation v ∈ findings run qs
    · rw [Entries.insertNew_of_mem (hm.mpr hv), if_pos hv, List.append_nil]
    · rw [Entries.insertNew_of_not_mem (mt hm.mp hv), if_neg hv]
  refine ⟨?_, fun d hd hu => ?_, ?_⟩
  · rw [ha, findings_concat, hf, Option.toList_some, eraseDups_concat, List.map_append, hs,
      ← h.entries]
    refine hi.trans ?_
    split
    · rfl
    · rw [List.map_singleton, said_ofViolation]
  · rw [ha] at hd
    obtain ⟨e, he, hh⟩ := h.held d hd hu
    exact ⟨e, hff ▸ he, hh.of_said (congrFun hs e)⟩
  · rw [hff, hs, offered_of_none ho]
    exact h.settled

theorem said_of_some {c : Constraint} {message : String}
    (h : (after run qs).offer? q = some (c, message)) (e : Entry) :
    said run (qs ++ [q]) e =
      if c.entry.declaration = e.declaration ∧ c.declines message = false then
        { e with message := some message }
      else said run qs e := by
  rw [said, taken_of_some h, said]
  split <;> simp

theorem Holds.settle {c : Constraint} {e : Entry} (h : Holds run qs c e)
    (hu : c.satisfied = false) {messages : List String} (hm : c.message = e.settle messages)
    (message : String) :
    (if c.declines message = false then some message else c.message) =
      e.settle (messages ++ [message]) := by
  rw [Entry.settle_concat, ← hm]
  cases hc : c.message with
  | none =>
    have he : e.message = none := Entry.message_of_settle_eq_none (hm.symm.trans hc)
    simp [Constraint.declines, Constraint.keeps, Constraint.refuses, hu, hc, he]
  | some m =>
    have ho : c.overridable = true ↔ some m = e.message := by
      rw [h.overridable, hc]
      exact ⟨And.left, fun he => ⟨he, he ▸ Option.some_ne_none m⟩⟩
    by_cases hmm : m = message
    · simp [Constraint.declines, Constraint.keeps, hc, hmm]
    · by_cases he : some m = e.message
      · simp [Constraint.declines, Constraint.refuses, ho.mpr he, ← he, hmm]
      · have hov : c.overridable = false := by simpa using mt ho.mp he
        simp [Constraint.declines, Constraint.keeps, Constraint.refuses, hu, hc, hov, hmm, he]

theorem Holds.eq_of_mem_findings {c : Constraint} {e f : Entry} (h : Holds run qs c e)
    (hd : Distinct run qs) (he : e ∈ failures run qs) (hf : f ∈ findings run qs)
    (hfc : f.declaration = c.entry.declaration) : f = e := by
  have ho : f.origin ≠ none := (congrArg Prod.snd hfc).trans_ne (Option.some_ne_none _)
  exact hd.eq (mem_failures_of_mem_findings hf ho) he (hfc.trans h.declaration)

theorem Deferred.attach_eq_map (h : Deferred run qs) (hd : Distinct run qs) {c : Constraint}
    (hc : c ∈ (after run qs).constraints) {e : Entry} (he : e ∈ failures run qs)
    (hh : Holds run qs c e) {message : String} (hk : c.keeps message = false) :
    (after run qs).entries.attach c.entry c.owned { c.entry with message := some message } =
      (true, (after run qs).entries.map fun x =>
        if x = c.entry then { c.entry with message := some message } else x) := by
  have hs := sound_after run qs
  have hne := Constraint.entry_ne_of_not_keeps hk
  have hu : ∀ x ∈ (after run qs).entries, x.declaration = c.entry.declaration → x = c.entry := by
    intro x hx hxc
    rw [h.entries] at hx
    obtain ⟨f, hf, rfl⟩ := List.mem_map.mp hx
    have hfe : f = e := hh.eq_of_mem_findings hd he (List.mem_eraseDups.mp hf) hxc
    rw [hfe, hh.entry]
  have hm := hs.present c hc hh.owned
  rw [hh.owned]
  exact Entries.attach_eq_map hs.nodup hm rfl hne hu

theorem constraints_ask_otherwise {p : Progress} {c : Constraint} (hc : c ∈ p.constraints)
    (run : RunId) (message : String) :
    (p.ask run (.otherwise c message)).constraints =
      if c.declines message then p.constraints.erase c
      else (c.messaged message p.entries).1 :: p.constraints.erase c := by
  rw [ask, if_pos hc]
  split <;> rfl

section Offer

variable {c : Constraint} {e : Entry} {message : String}

theorem offer?_otherwise (hc : c ∈ (after run qs).constraints) (hu : c.satisfied = false)
    (message : String) :
    (after run qs).offer? (.otherwise c message) = some (c, message) := if_pos ⟨hc, hu⟩

theorem said_offer_of_ne (hc : c ∈ (after run qs).constraints) (hu : c.satisfied = false)
    (hh : Holds run qs c e) {f : Entry} (hf : f.declaration ≠ e.declaration) :
    said run (qs ++ [.otherwise c message]) f = said run qs f := by
  rw [said_of_some (offer?_otherwise hc hu message), if_neg fun hx =>
    hf (hx.1.symm.trans hh.declaration)]

theorem said_offer_self (hc : c ∈ (after run qs).constraints) (hu : c.satisfied = false)
    (hh : Holds run qs c e) :
    said run (qs ++ [.otherwise c message]) e =
      { e with message := if c.declines message = false then some message else c.message } := by
  rw [said_of_some (offer?_otherwise hc hu message), hh.message]
  by_cases hdc : c.declines message = false
  · rw [if_pos ⟨hh.declaration, hdc⟩, if_pos hdc]
  · rw [if_neg fun hx => hdc hx.2, if_neg hdc]
    rfl

theorem said_offer_of_not_gives (hc : c ∈ (after run qs).constraints) (hu : c.satisfied = false)
    (hh : Holds run qs c e) (hg : ¬(after run qs).Gives (.otherwise c message) c message) :
    said run (qs ++ [.otherwise c message]) e = said run qs e := by
  have hm : (if c.declines message = false then some message else c.message) = c.message := by
    split
    · rename_i hdc
      have hk : c.keeps message = true := by
        by_contra hk
        rw [Bool.not_eq_true] at hk
        exact hg ⟨rfl, hc, hk, by simpa [Constraint.declines, hk] using hdc⟩
      simpa [Constraint.keeps, hu, eq_comm] using hk
    · rfl
  rw [said_offer_self hc hu hh, hm, hh.message]
  rfl

theorem Deferred.message_ne_of_gives (h : Deferred run qs) (he : e ∈ failures run qs)
    (hh : Holds run qs c e) (hg : (after run qs).Gives (.otherwise c message) c message) :
    some message ≠ e.message := by
  intro hm
  have hcm : c.message = e.settle (offered run qs e.declaration) :=
    (congrArg Entry.message hh.entry).trans (h.settled e he)
  have hkm : c.message ≠ some message := by
    intro hx
    have hk := hg.keeps
    simp [Constraint.keeps, hx] at hk
  have hv : c.overridable = false := by
    rw [← Bool.not_eq_true, hh.overridable]
    exact fun hx => hkm (hx.1.trans hm.symm)
  have hn : c.message = none := by
    rw [Option.eq_none_iff_forall_ne_some]
    intro m hcs
    have hr := hg.refuses
    simp only [Constraint.refuses, hv, hcs, Bool.not_false, Bool.true_and, Option.any_some,
      decide_eq_false_iff_not, not_not] at hr
    exact hkm (hr ▸ hcs)
  exact Option.some_ne_none _ (hm.trans (Entry.message_of_settle_eq_none (hcm.symm.trans hn)))

theorem Deferred.offer_entries (h : Deferred run qs) (hd : Distinct run qs)
    (hc : c ∈ (after run qs).constraints) (hu : c.satisfied = false) (he : e ∈ failures run qs)
    (hh : Holds run qs c e) :
    (after run (qs ++ [.otherwise c message])).entries =
      (findings run qs).eraseDups.map (said run (qs ++ [.otherwise c message])) := by
  rw [after_concat]
  by_cases hg : (after run qs).Gives (.otherwise c message) c message
  · have hdc : c.declines message = false := by simp [Constraint.declines, hg.refuses]
    have ha := congrArg Prod.snd (h.attach_eq_map hd hc he hh hg.keeps)
    rw [hg.ask_eq, Constraint.messaged_of_not_keeps hg.keeps]
    refine ha.trans ?_
    rw [h.entries, List.map_map]
    refine List.map_congr_left fun f hf => ?_
    have hf := List.mem_eraseDups.mp hf
    by_cases hfe : f.declaration = c.entry.declaration
    · rw [hh.eq_of_mem_findings hd he hf hfe, said_offer_self hc hu hh, if_pos hdc,
        Function.comp_apply, if_pos hh.entry.symm, hh.entry]
      rfl
    · have hne : said run qs f ≠ c.entry := by
        intro hx
        rw [← hx] at hfe
        exact hfe rfl
      rw [Function.comp_apply, if_neg hne, said_offer_of_ne hc hu hh fun hx =>
        hfe (hx.trans hh.declaration.symm)]
  · rw [(ask_otherwise_of_not_gives hg run).1, h.entries]
    refine List.map_congr_left fun f hf => ?_
    by_cases hfe : f.declaration = e.declaration
    · rw [hh.eq_of_mem_findings hd he (List.mem_eraseDups.mp hf) (hfe.trans hh.declaration.symm),
        said_offer_of_not_gives hc hu hh hg]
    · rw [said_offer_of_ne hc hu hh hfe]

theorem Deferred.holds_messaged (h : Deferred run qs) (hd : Distinct run qs)
    (hc : c ∈ (after run qs).constraints) (hu : c.satisfied = false) (he : e ∈ failures run qs)
    (hh : Holds run qs c e) (hdc : c.declines message = false) :
    Holds run (qs ++ [.otherwise c message]) (c.messaged message (after run qs).entries).1 e := by
  by_cases hg : (after run qs).Gives (.otherwise c message) c message
  · rw [Constraint.messaged_of_not_keeps hg.keeps]
    refine ⟨congrArg Prod.fst (h.attach_eq_map hd hc he hh hg.keeps), ?_, ?_⟩
    · rw [said_offer_self hc hu hh, if_pos hdc]
      have hce : { c.entry with message := some message } =
          { said run qs e with message := some message } := by rw [hh.entry]
      exact hce
    · exact ⟨nofun, fun hx => absurd hx.1 (h.message_ne_of_gives he hh hg)⟩
  · have hk : c.keeps message = true := by
      by_contra hk
      rw [Bool.not_eq_true] at hk
      exact hg ⟨rfl, hc, hk, by simpa [Constraint.declines, hk] using hdc⟩
    rw [Constraint.messaged_of_keeps hk]
    exact hh.of_said (said_offer_of_not_gives hc hu hh hg)

theorem Deferred.holds_rest (h : Deferred run qs) (hd : Distinct run qs)
    (hc : c ∈ (after run qs).constraints) (hu : c.satisfied = false) (he : e ∈ failures run qs)
    (hh : Holds run qs c e) {d : Constraint} (hdm : d ∈ (after run qs).constraints.erase c)
    (hdu : d.satisfied = false) :
    ∃ f ∈ failures run qs, Holds run (qs ++ [.otherwise c message]) d f := by
  obtain ⟨f, hf, hhf⟩ := h.held d (List.mem_of_mem_erase hdm) hdu
  have hx := ((sound_after run qs).perm (List.perm_cons_erase hc)).exclusive
  have hne : c.entry ≠ d.entry := (List.pairwise_cons.mp hx).1 d hdm hh.owned hhf.owned
  refine ⟨f, hf, hhf.of_said (said_offer_of_ne hc hu hh fun hfe => hne ?_)⟩
  rw [hh.entry, hhf.entry, hd.eq hf he hfe]

theorem Deferred.offer (h : Deferred run qs) (hd : Distinct run qs)
    (hc : c ∈ (after run qs).constraints) (hu : c.satisfied = false) (message : String) :
    Deferred run (qs ++ [.otherwise c message]) := by
  obtain ⟨e, he, hh⟩ := h.held c hc hu
  have hff : failures run (qs ++ [.otherwise c message]) = failures run qs := by
    simp [failures_concat, failure?]
  have hfi : findings run (qs ++ [.otherwise c message]) = findings run qs := by
    simp [findings_concat, finding?, failure?, violation?]
  refine ⟨?_, fun d hdm hdu => ?_, fun f hf => ?_⟩
  · rw [hfi]
    exact h.offer_entries hd hc hu he hh
  · rw [after_concat, constraints_ask_otherwise hc] at hdm
    rw [hff]
    split at hdm
    · exact h.holds_rest hd hc hu he hh hdm hdu
    · rename_i hdc
      rw [Bool.not_eq_true] at hdc
      rcases List.mem_cons.mp hdm with rfl | hdm
      · exact ⟨e, he, h.holds_messaged hd hc hu he hh hdc⟩
      · exact h.holds_rest hd hc hu he hh hdm hdu
  · rw [hff] at hf
    rw [offered_of_some (offer?_otherwise hc hu message)]
    by_cases hfe : f.declaration = e.declaration
    · rw [hd.eq hf he hfe, if_pos hh.declaration, said_offer_self hc hu hh]
      exact hh.settle hu (hh.message.trans (h.settled e he)) message
    · rw [said_offer_of_ne hc hu hh hfe, if_neg fun hx => hfe (hx.symm.trans hh.declaration),
        List.append_nil]
      exact h.settled f hf

end Offer

theorem Deferred.register (h : Deferred run qs) (n : Node Content) (c : Constraint) :
    Deferred run (qs ++ [.register n c]) := by
  have ha : after run (qs ++ [.register n c]) = after run qs := by
    rw [after_concat, ask]
    split
    · rename_i hc
      obtain ⟨e, -, hh⟩ := h.held c hc.2.1 hc.2.2
      have hm := (sound_after run qs).present c hc.2.1 hh.owned
      have hi := Entries.insert_of_covers (.inl (Option.some_ne_none _)) (.inl hm)
      rw [insert, hi]
    · rfl
  exact h.same rfl rfl ha

theorem Deferred.declare (h : Deferred run qs) (n : Node Content) (satisfied : Bool)
    (origin : Origin)
    (hn : ∀ e, failure? run (.declare n satisfied origin) = some e →
      e.declaration ∉ (failures run qs).declarations) :
    Deferred run (qs ++ [.declare n satisfied origin]) := by
  have hf := finding?_declare run n satisfied origin
  have ha := after_concat run qs (.declare n satisfied origin)
  rw [ask] at ha
  by_cases hr : n.run = run
  · rw [if_pos hr] at ha
    cases satisfied with
    | true => exact h.satisfied (hf.trans (if_neg (by simp))) rfl rfl ha
    | false =>
      have hq : failure? run (.declare n false origin) = some ⟨n.path, none, some origin⟩ :=
        if_pos ⟨hr, rfl⟩
      rw [Constraint.declared_false] at ha
      exact h.fail ha hq (hn _ hq) rfl rfl rfl
  · rw [if_neg hr] at ha
    exact h.same (hf.trans (if_neg fun hx => hr hx.1)) rfl ha

theorem Deferred.apply (h : Deferred run qs) (n : Node Content) (r : Rule)
    (hn : ∀ e, failure? run (.apply n r) = some e →
      e.declaration ∉ (failures run qs).declarations) :
    Deferred run (qs ++ [.apply n r]) := by
  have hf := finding?_apply run n r
  have ha := after_concat run qs (.apply n r)
  rw [ask] at ha
  by_cases hr : n.run = run
  · rw [if_pos hr] at ha
    cases hp : r.passes n.value with
    | true =>
      rw [hp, Constraint.judged_true] at ha
      exact h.satisfied (hf.trans (if_neg (by simp [hp]))) rfl rfl ha
    | false =>
      have hq : failure? run (.apply n r) =
          some ⟨n.path, some (r.complaint n.value), some (.rule r.name)⟩ := if_pos ⟨hr, hp⟩
      rw [hp, Constraint.judged_false] at ha
      exact h.fail ha hq (hn _ hq) rfl rfl rfl
  · rw [if_neg hr] at ha
    exact h.same (hf.trans (if_neg fun hx => hr hx.1)) rfl ha

theorem deferred_of_distinct (h : Distinct run qs) : Deferred run qs := by
  -- By the last request, as messages are offered to constraints as they stand then.
  induction qs using List.reverseRecOn with
  | nil =>
    exact ⟨rfl, fun c hc => absurd hc List.not_mem_nil, fun e he => absurd he List.not_mem_nil⟩
  | append_singleton qs q ih =>
    obtain ⟨hd, hn⟩ := distinct_concat.mp h
    have hp : Deferred run qs := ih hd
    cases q with
    | declare n satisfied origin => exact hp.declare n satisfied origin hn
    | apply n r => exact hp.apply n r hn
    | otherwise c message =>
      by_cases hc : c ∈ (after run qs).constraints ∧ c.satisfied = false
      · exact hp.offer hd hc.1 hc.2 message
      · have hg : ¬(after run qs).Gives (.otherwise c message) c message := fun hg =>
          hc ⟨hg.exist, hg.satisfied⟩
        have ha := ask_otherwise_of_not_gives hg run
        rw [← after_concat] at ha
        exact hp.idle rfl (if_neg hc) ha.1 fun d hm _ => ha.2 hm
    | register n c => exact hp.register n c
    | report n v =>
      by_cases hr : n.run = run
      · exact hp.report hr v
      · have ha := after_concat run qs (.report n v)
        rw [ask, if_neg hr] at ha
        exact hp.same ((finding?_report run n v).trans (if_neg hr)) rfl ha

theorem said_eq_of_offered {run' : RunId} {qs' : List Request} (h : Distinct run qs)
    (h' : Distinct run' qs') (hf : findings run' qs' = findings run qs)
    (ho : ∀ d ∈ (failures run qs).declarations, offered run' qs' d = offered run qs d) {e : Entry}
    (he : e ∈ findings run qs) : said run' qs' e = said run qs e := by
  by_cases hn : e.origin = none
  · have hv : ∀ run qs, e.declaration ∉ (failures run qs).declarations := by
      intro run qs hd
      obtain ⟨f, hf, hfd⟩ := Entries.mem_declarations.mp hd
      exact origin_of_mem_failures hf ((congrArg Prod.snd hfd).trans hn)
    rw [said_of_not_mem (hv run' qs'), said_of_not_mem (hv run qs)]
  · have hm := mem_failures_of_mem_findings he hn
    have hm' := mem_failures_of_mem_findings (hf ▸ he) hn
    have hs : (said run' qs' e).message = (said run qs e).message := by
      rw [(deferred_of_distinct h').settled e hm', (deferred_of_distinct h).settled e hm,
        ho _ (Entries.mem_declarations_of_mem hm)]
    exact congrArg (fun m => ({ e with message := m } : Entry)) hs

end Progress

namespace Validator

open Request

theorem run_of_distinct (v : Validator) (subject context : Json) {s : State}
    (hs : s.Faithful []) (h : (v.play subject context s).1 = .ok ())
    (hd : Distinct s.nextRun (v.requests subject context s)) :
    ((v.run subject context).run s).1 = .ofViolations subject
      (((findings s.nextRun (v.requests subject context s)).eraseDups.map
        (Progress.said s.nextRun (v.requests subject context s))).map
        (·.toViolation v.configuration.defaultMessage)) := by
  rw [v.run_of_returned subject context h, v.found_eq subject context hs,
    (Progress.deferred_of_distinct hd).entries]

/-- A run whose block returns and whose unsatisfied constraints are of different declarations
reports each finding where it was made, however late messages come: each constraint with the last
message that it has taken. Another run with the same findings, in which the same messages are
offered to each of these constraints, reports the same, whatever the order of offers to different
constraints. -/
theorem report_of_distinct (steps : List SessionStep) (v : Validator) (subject context : Json)
    (h : (v.play subject context (Session.state steps)).1 = .ok ())
    (hd : Distinct (Session.state steps).nextRun
      (v.requests subject context (Session.state steps))) :
    let s := Session.state steps
    let qs := v.requests subject context s
    let kept := (findings s.nextRun qs).eraseDups.map (Progress.said s.nextRun qs)
    let report : List Violation :=
      kept.map fun e => ⟨e.path, e.message.getD v.configuration.defaultMessage⟩
    ((v.run subject context).run s).1 = .ofViolations subject report ∧
      ∀ (steps' : List SessionStep) (v' : Validator) (subject' context' : Json),
        let s' := Session.state steps'
        let qs' := v'.requests subject' context' s'
        (v'.play subject' context' s').1 = .ok () → Distinct s'.nextRun qs' →
        v'.configuration.defaultMessage = v.configuration.defaultMessage →
        findings s'.nextRun qs' = findings s.nextRun qs →
        (∀ d ∈ (failures s.nextRun qs).declarations,
          Progress.offered s'.nextRun qs' d = Progress.offered s.nextRun qs d) →
        ((v'.run subject' context').run s').1 = .ofViolations subject' report := by
  intro s qs kept report
  refine ⟨v.run_of_distinct subject context (Session.faithful_state steps) h hd, ?_⟩
  intro steps' v' subject' context' s' qs' h' hd' hm hf ho
  have hr := v'.run_of_distinct subject' context' (Session.faithful_state steps') h' hd'
  have hk : (findings s'.nextRun qs').eraseDups.map (Progress.said s'.nextRun qs') = kept := by
    rw [hf]
    exact List.map_congr_left fun e he =>
      Progress.said_eq_of_offered hd hd' hf ho (List.mem_eraseDups.mp he)
  rw [hr, hm]
  exact congrArg (fun es : Entries => Outcome.ofViolations subject'
    (es.map (·.toViolation v.configuration.defaultMessage))) hk

/-- Two constraints are held, and one of them is registered again, before two last statements.
Between them stands one of which nothing is ever said. -/
def reticent (first second : Statement) : Validator :=
  ⟨⟨"root", false,
    [.constrain "root" (some "never") .always 0 (.constant false) false,
      .constrain "root" none .always 1 (.constant false) false,
      .derive "root" "name" (.key "name"),
      .apply "name" (some "missing") .present,
      .register "root" "never" .unwind, first, second]⟩, .standard, []⟩

def nameLast : Validator :=
  reticent (.otherwise "never" "Refused" .unwind) (.otherwise "missing" "A name is needed" .unwind)

def nameFirst : Validator :=
  reticent (.otherwise "missing" "A name is needed" .unwind) (.otherwise "never" "Refused" .unwind)

def reticentReport : Report :=
  ⟨[⟨.root, "Refused"⟩, ⟨.root, "The value is invalid."⟩,
    ⟨Path.root.push "name", "A name is needed"⟩], by simp⟩

theorem reticent_reports :
    ((nameLast.run .null .null).run (Session.state [])).1 = .failure reticentReport ∧
      ((nameFirst.run .null .null).run (Session.state [])).1 = .failure reticentReport := by
  have h : (nameLast.play .null .null (Session.state [])).1 = .ok () := by decide +kernel
  have h' : (nameFirst.play .null .null (Session.state [])).1 = .ok () := by decide +kernel
  have hd : Distinct (Session.state []).nextRun
      (nameLast.requests .null .null (Session.state [])) := by decide +kernel
  have hd' : Distinct (Session.state []).nextRun
      (nameFirst.requests .null .null (Session.state [])) := by decide +kernel
  obtain ⟨hr, hx⟩ := report_of_distinct [] nameLast .null .null h hd
  have hf := hx [] nameFirst .null .null h' hd' rfl (by decide +kernel) (by decide +kernel)
  have hl := Outcome.ofViolations_toList .null reticentReport
  refine ⟨hr.trans (Eq.trans (congrArg _ ?_) hl), hf.trans (Eq.trans (congrArg _ ?_) hl)⟩
  all_goals decide +kernel

end Validator

end Vetting
