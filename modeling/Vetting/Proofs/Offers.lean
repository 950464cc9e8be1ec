import Vetting.Proofs.Verdict

/-! The messages that are offered to the unsatisfied constraints of a run, those of them that are
taken, and what is said of a declaration in the end: the last message that it has taken. Where no
two unsatisfied constraints are of one declaration, a declaration has one constraint to offer
messages to. -/

namespace Vetting

namespace Request

variable {run : RunId} {qs : List Request} {q : Request} {e f : Entry}

def failures (run : RunId) (qs : List Request) : Entries := qs.filterMap (failure? run)

def Distinct (run : RunId) (qs : List Request) : Prop := (failures run qs).declarations.Nodup

instance (run : RunId) (qs : List Request) : Decidable (Distinct run qs) :=
  inferInstanceAs (Decidable (List.Nodup _))

theorem failures_concat (run : RunId) (qs : List Request) (q : Request) :
    failures run (qs ++ [q]) = failures run qs ++ (q.failure? run).toList := by
  cases h : q.failure? run <;> simp [failures, h]

theorem distinct_concat :
    Distinct run (qs ++ [q]) ↔
      Distinct run qs ∧
        ∀ e, q.failure? run = some e → e.declaration ∉ (failures run qs).declarations := by
  rw [Distinct, failures_concat, Entries.declarations_append, List.nodup_append]
  cases h : q.failure? run with
  | none => simp [Distinct]
  | some e =>
    simp only [Option.toList_some, Entries.declarations_cons, Entries.declarations_nil,
      List.nodup_singleton, true_and, List.mem_singleton, forall_eq, Option.some.injEq,
      forall_eq', Distinct]
    refine and_congr_right fun _ => ⟨fun hx hm => hx _ hm rfl, ?_⟩
    rintro hx d hd rfl
    exact hx hd

theorem Distinct.eq (h : Distinct run qs) (he : e ∈ failures run qs) (hf : f ∈ failures run qs)
    (hd : e.declaration = f.declaration) : e = f := List.inj_on_of_nodup_map h he hf hd

theorem origin_of_mem_failures (h : e ∈ failures run qs) : e.origin ≠ none := by
  obtain ⟨q, -, hq⟩ := List.mem_filterMap.mp h
  exact origin_of_failure? hq

theorem mem_failures_of_mem_findings (h : e ∈ findings run qs) (ho : e.origin ≠ none) :
    e ∈ failures run qs := by
  obtain ⟨q, hq, hf⟩ := List.mem_filterMap.mp h
  rcases finding?_cases hf with hf | ⟨v, -, rfl⟩
  · exact List.mem_filterMap.mpr ⟨q, hq, hf⟩
  · exact absurd rfl ho

end Request

namespace Progress

open Request

def offer? (p : Progress) : Request → Option (Constraint × String)
  | .otherwise c message =>
    if c ∈ p.constraints ∧ c.satisfied = false then some (c, message) else none
  | _ => none

/-- The messages that requests offer to unsatisfied constraints of the run, each with its constraint
as it stands then. -/
def offers (run : RunId) (qs : List Request) : List (Constraint × String) :=
  (qs.foldl (fun s q => (s.1.ask run q, s.2 ++ (s.1.offer? q).toList)) (start, [])).2

def offered (run : RunId) (qs : List Request) (d : Declaration) : List String :=
  ((offers run qs).filter (·.1.entry.declaration = d)).map Prod.snd

def taken (run : RunId) (qs : List Request) (d : Declaration) : List String :=
  ((offers run qs).filter fun o => o.1.entry.declaration = d ∧ o.1.declines o.2 = false).map
    Prod.snd

/-- The entry with the last message that its declaration has taken, if there is one. -/
def said (run : RunId) (qs : List Request) (e : Entry) : Entry :=
  { e with message := (taken run qs e.declaration).getLast?.or e.message }

variable {run : RunId} {qs : List Request} {q : Request} {e : Entry}

theorem offers_concat (run : RunId) (qs : List Request) (q : Request) :
    offers run (qs ++ [q]) = offers run qs ++ ((after run qs).offer? q).toList := by
  have ha : ∀ qs : List Request,
      (qs.foldl (fun s q => (s.1.ask run q, s.2 ++ (s.1.offer? q).toList)) (start, [])).1 =
        after run qs := by
    intro qs
    induction qs using List.reverseRecOn with
    | nil => rfl
    | append_singleton qs q ih => rw [List.foldl_append, after_concat, ← ih]; rfl
  rw [offers, List.foldl_append, List.foldl_cons, List.foldl_nil, ha]
  rfl

theorem offers_of_none (h : (after run qs).offer? q = none) :
    offers run (qs ++ [q]) = offers run qs := by
  rw [offers_concat, h, Option.toList_none, List.append_nil]

theorem offered_of_none (h : (after run qs).offer? q = none) :
    offered run (qs ++ [q]) = offered run qs := by
  funext d
  rw [offered, offers_of_none h, offered]

theorem said_of_none (h : (after run qs).offer? q = none) :
    said run (qs ++ [q]) = said run qs := by
  funext e
  rw [said, taken, offers_of_none h, said, taken]

theorem offered_of_some {c : Constraint} {message : String}
    (h : (after run qs).offer? q = some (c, message)) (d : Declaration) :
    offered run (qs ++ [q]) d =
      offered run qs d ++ if c.entry.declaration = d then [message] else [] := by
  rw [offered, offers_concat, h, offered]
  by_cases hd : c.entry.declaration = d <;> simp [hd]

theorem taken_of_some {c : Constraint} {message : String}
    (h : (after run qs).offer? q = some (c, message)) (d : Declaration) :
    taken run (qs ++ [q]) d =
      taken run qs d ++
        if c.entry.declaration = d ∧ c.declines message = false then [message] else [] := by
  rw [taken, offers_concat, h, taken]
  by_cases hd : c.entry.declaration = d ∧ c.declines message = false <;> simp [hd]

@[simp]
theorem declaration_said (run : RunId) (qs : List Request) (e : Entry) :
    (said run qs e).declaration = e.declaration := rfl

theorem mem_failures_of_mem_offers {o : Constraint × String} (h : o ∈ offers run qs) :
    o.1.entry.declaration ∈ (failures run qs).declarations := by
  induction qs using List.reverseRecOn with
  | nil => exact absurd h List.not_mem_nil
  | append_singleton qs q ih =>
    rw [failures_concat, Entries.declarations_append]
    rw [offers_concat] at h
    refine List.mem_append_left _ ?_
    rcases List.mem_append.mp h with h | h
    · exact ih h
    · cases q with
      | otherwise c message =>
        by_cases hc : c ∈ (after run qs).constraints ∧ c.satisfied = false
        · rw [offer?, if_pos hc, Option.toList_some] at h
          cases List.mem_singleton.mp h
          obtain ⟨⟨r, hr, f, hf, hd⟩, -⟩ := backed_constraints run qs c hc.1 hc.2
          have hm : f ∈ failures run qs := List.mem_filterMap.mpr ⟨r, hr, hf⟩
          exact hd ▸ Entries.mem_declarations_of_mem hm
        · rw [offer?, if_neg hc, Option.toList_none] at h
          exact absurd h List.not_mem_nil
      | _ => exact absurd h List.not_mem_nil

theorem offered_of_not_mem {d : Declaration} (h : d ∉ (failures run qs).declarations) :
    offered run qs d = [] := by
  have hn : (offers run qs).filter (·.1.entry.declaration = d) = [] := by
    rw [List.filter_eq_nil_iff]
    intro o ho hd
    exact h (of_decide_eq_true hd ▸ mem_failures_of_mem_offers ho)
  rw [offered, hn, List.map_nil]

theorem said_of_not_mem (h : e.declaration ∉ (failures run qs).declarations) :
    said run qs e = e := by
  have hn : taken run qs e.declaration = [] := by
    rw [taken, List.map_eq_nil_iff, List.filter_eq_nil_iff]
    intro o ho hd
    exact h ((of_decide_eq_true hd).1 ▸ mem_failures_of_mem_offers ho)
  rw [said, hn, List.getLast?_nil, Option.none_or]

theorem said_ofViolation (run : RunId) (qs : List Request) (v : Violation) :
    said run qs (.ofViolation v) = .ofViolation v := by
  refine said_of_not_mem fun h => ?_
  obtain ⟨e, he, hd⟩ := Entries.mem_declarations.mp h
  exact origin_of_mem_failures he (congrArg Prod.snd hd)

end Progress

/-- The message that comes of the messages offered to a constraint: the first that differs from the
one it was made with, if it was made with any. -/
def Entry.settle (e : Entry) (messages : List String) : Option String :=
  (messages.find? fun m => e.message ≠ some m).or e.message

theorem Entry.settle_concat (e : Entry) (messages : List String) (m : String) :
    e.settle (messages ++ [m]) =
      if e.settle messages = e.message ∧ e.message ≠ some m then some m else e.settle messages := by
  rw [settle, settle, List.find?_append]
  cases h : messages.find? fun m => e.message ≠ some m with
  | none => by_cases hm : e.message = some m <;> simp [hm]
  | some m' =>
    have hm' : e.message ≠ some m' := by simpa using List.find?_some h
    simp [Ne.symm hm']

theorem Entry.message_of_settle_eq_none {e : Entry} {messages : List String}
    (h : e.settle messages = none) : e.message = none := (Option.or_eq_none_iff.mp h).2

end Vetting
