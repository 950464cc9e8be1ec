import Mathlib.Data.List.TakeWhile
import Vetting.Proofs.Run.World

/-! Messages offered to one constraint, one after another. A constraint has one message of its
caller's: the first stays, and any other is turned down for it. Only the message that a rule has
brought is given up for another; and a caller who says the same as the rule has not spoken yet. -/

namespace Vetting

namespace Constraint

/-- Offers messages one after another, up to the first that is refused. Beside each message stand
the runs as they are by then; whatever else is done in between shows in them alone. -/
def offers (c : Constraint) : List (String × Runs) → Except Misuse Constraint
  | [] => .ok c
  | (message, rs) :: rest =>
    match ((c.otherwise message).run rs).1 with
    | .ok d => d.offers rest
    | .error m => .error m

def insist (path : Path) (first : String) (messages : List String) :
    Except Misuse (Option String) :=
  match messages.find? (· ≠ first) with
  | none => .ok (some first)
  | some other => .error (.conflictingMessage path first other)

/-- What is answered to messages when the constraint was made with a message, or with none. As long
as they repeat that message, none of them counts. -/
def answer (path : Path) (made : Option String) (messages : List String) :
    Except Misuse (Option String) :=
  match messages.dropWhile (made = some ·) with
  | [] => .ok made
  | message :: rest => insist path message rest

inductive Made (c : Constraint) : Prop where
  | declared (n : Node Content) (origin : Origin) (rs : Runs) :
    ((Request.declare n c.satisfied origin).perform.run rs).1 = .ok c → Made c
  | judged (n : Node Content) (rule : Rule) (rs : Runs) :
    ((Request.apply n rule).perform.run rs).1 = .ok c → Made c

theorem Made.overridable {c : Constraint} (h : c.Made) (hu : c.satisfied = false) :
    c.overridable = c.message.isSome := by
  cases h with
  | declared n origin rs h =>
    rw [hu] at h
    simp only [Request.perform, Node.declare, run_declare] at h
    split at h
    · cases h
    · cases h
      rfl
  | judged n rule rs h =>
    simp only [Request.perform, Node.run_apply] at h
    split at h
    · cases h
    · injection h with h
      subst h
      cases hp : rule.passes n.value with
      | true =>
        rw [hp, judged_true] at hu
        cases hu
      | false =>
        rw [judged_false]
        rfl

section

variable {c : Constraint} {message : String} {rs : Runs} (hu : c.satisfied = false)

include hu

theorem keeps_eq : c.keeps message = decide (c.message = some message) := by simp [keeps, hu]

theorem otherwise_of_eq (hm : c.message = some message) :
    ((c.otherwise message).run rs).1 = .ok c := by
  rw [run_otherwise, if_pos (by simp [keeps_eq hu, hm])]

theorem otherwise_of_ne (hm : c.message ≠ some message) (hr : c.refuses message = false)
    (ho : (rs.ledger c.run).completed = false) :
    ∃ owned, ((c.otherwise message).run rs).1 =
      .ok { c with message := some message, overridable := false, owned } := by
  have hk : c.keeps message = false := by simp [keeps_eq hu, hm]
  rw [run_otherwise_of_open ho hr, messaged_of_not_keeps hk]
  exact ⟨_, rfl⟩

theorem otherwise_of_refuses (hm : c.message ≠ some message) (hr : c.refuses message = true) :
    ((c.otherwise message).run rs).1 =
      .error (.conflictingMessage c.path (c.message.getD "") message) := by
  rw [run_otherwise, if_neg (by simp [keeps_eq hu, hm]), if_pos hr]

end

theorem offers_of_stays {c : Constraint} {first : String} (hu : c.satisfied = false)
    (hm : c.message = some first) (hv : c.overridable = false) (offered : List (String × Runs)) :
    (c.offers offered).map Constraint.message = insist c.path first (offered.map Prod.fst) := by
  induction offered with
  | nil => exact congrArg Except.ok hm
  | cons o rest ih =>
    obtain ⟨message, rs⟩ := o
    rw [offers]
    by_cases he : message = first
    · subst he
      rw [otherwise_of_eq hu hm]
      simpa [insist] using ih
    · have hr : c.refuses message = true := by simp [refuses, hv, hm, Ne.symm he]
      have hne : c.message ≠ some message := by simpa [hm] using Ne.symm he
      rw [otherwise_of_refuses hu hne hr, hm]
      simp [insist, he, Except.map]

theorem offers_of_overridable {c : Constraint} (hu : c.satisfied = false)
    (hv : c.overridable = c.message.isSome) {offered : List (String × Runs)}
    (ho : ∀ o ∈ offered, (o.2.ledger c.run).completed = false) :
    (c.offers offered).map Constraint.message =
      answer c.path c.message (offered.map Prod.fst) := by
  induction offered with
  | nil => rfl
  | cons o rest ih =>
    obtain ⟨message, rs⟩ := o
    obtain ⟨hrs, hrest⟩ := List.forall_mem_cons.mp ho
    rw [offers]
    by_cases he : c.message = some message
    · -- The constraint comes back as it was, and would still give up its message.
      rw [otherwise_of_eq hu he]
      simpa [answer, he] using ih hrest
    · have hr : c.refuses message = false := by
        cases hc : c.message <;> simp [refuses, hv, hc]
      obtain ⟨owned, hd⟩ := otherwise_of_ne hu he hr hrs
      rw [hd]
      have hi := offers_of_stays (c := { c with
        message := some message, overridable := false, owned }) hu rfl rfl rest
      simpa [answer, he] using hi

theorem eq_of_insist_eq {path : Path} {first first' : String} {rest rest' : List String}
    (h : insist path first rest = insist path first' rest') : first = first' := by
  unfold insist at h
  split at h <;> split at h <;> cases h <;> rfl

theorem insist_of_forall_eq {path : Path} {first : String} {rest : List String}
    (h : ∀ message ∈ rest, message = first) : insist path first rest = .ok (some first) := by
  rw [insist, List.find?_eq_none.mpr (by simpa using h)]

theorem answer_eq_insist_iff (path : Path) (made : Option String) (first : String)
    (rest : List String) :
    answer path made (first :: rest) = insist path first rest ↔
      (made = some first → ∀ message ∈ rest, message = first) := by
  by_cases hm : made = some first
  · subst hm
    have hd : (first :: rest).dropWhile (some first = some ·) =
        rest.dropWhile (some first = some ·) := List.dropWhile_cons_of_pos (by simp)
    rw [answer, hd]
    cases hr : rest.dropWhile (some first = some ·) with
    | nil =>
      have ha : ∀ message ∈ rest, message = first := by
        simpa [eq_comm] using List.dropWhile_eq_nil_iff.mp hr
      exact iff_of_true (insist_of_forall_eq ha).symm fun _ => ha
    | cons message later =>
      -- The message that comes to stay is the first one that the rule has not brought.
      have hne : message ≠ first := by
        have hh := List.head?_dropWhile_not (some first = some ·) rest
        rw [hr] at hh
        simpa [eq_comm] using hh
      have hmem : message ∈ rest :=
        (List.dropWhile_sublist _).subset (hr ▸ List.mem_cons_self)
      exact iff_of_false (fun he => hne (eq_of_insist_eq he)) fun ha => hne (ha rfl message hmem)
  · simp [answer, hm]

/-- What becomes of a constraint that was made in an open run and is offered messages while the run
is open. All messages are the caller's own and have to agree, and the first that differs is refused
for the first of all, just when the first is not what the rule says already or when they do agree.
In any case those that repeat the rule's message at the beginning do not count. -/
theorem diverging_refused_iff {c : Constraint} (h : c.Made) (hu : c.satisfied = false)
    (first : String × Runs) (rest : List (String × Runs))
    (ho : ∀ o ∈ first :: rest, (o.2.ledger c.run).completed = false) :
    (c.offers (first :: rest)).map Constraint.message =
        answer c.path c.message (first.1 :: rest.map Prod.fst) ∧
      ((c.offers (first :: rest)).map Constraint.message =
          insist c.path first.1 (rest.map Prod.fst) ↔
        (c.message = some first.1 → ∀ message ∈ rest.map Prod.fst, message = first.1)) := by
  have ha := offers_of_overridable hu (h.overridable hu) ho
  rw [List.map_cons] at ha
  exact ⟨ha, ha ▸ answer_eq_insist_iff c.path c.message first.1 (rest.map Prod.fst)⟩

def nameless : Constraint :=
  ⟨false, Path.root.push "name", some "Must not be null", true, .rule .present, 0, true⟩

theorem made_nameless : nameless.Made := by
  let name : Node Content := ⟨.optional none, Path.root.push "name", 0⟩
  exact .judged name .present Runs.none.start.2 (by decide)

/-- Who repeats the rule's message may still change it. -/
theorem nameless_gives_in :
    let rs := Runs.none.start.2
    nameless.Made ∧ (rs.ledger nameless.run).completed = false ∧
      (nameless.offers [("Must not be null", rs), ("A name is needed", rs)]).map
          Constraint.message = .ok (some "A name is needed") ∧
      (nameless.offers [("Must not be null", rs), ("A name is needed", rs)]).map
          Constraint.message ≠ insist nameless.path "Must not be null" ["A name is needed"] :=
  ⟨made_nameless, rfl, rfl, nofun⟩

theorem nameless_refuses :
    let rs := Runs.none.start.2
    (nameless.offers [("A name is needed", rs), ("A name is needed", rs),
        ("Must not be null", rs)]).map Constraint.message =
      .error (.conflictingMessage nameless.path "A name is needed" "Must not be null") := by
  intro rs
  have h := (diverging_refused_iff made_nameless rfl ("A name is needed", rs)
    [("A name is needed", rs), ("Must not be null", rs)] (by simp [rs]; rfl)).2
  exact h.mpr (by decide)

end Constraint

end Vetting
