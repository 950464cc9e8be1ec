import Vetting.Bookshelf
import Vetting.Proofs.Run.World

/-! Values that may be absent. On a value that is there, a rule says of an optional node what it
says of a plain one, and on an absent value it says nothing. So it does not matter whether rules are
declared through the accessors of an owner or through those of an owner that may be absent, and for
an absent owner nothing is found. -/

namespace Vetting

namespace Rule

/-- The rules on lengths, on texts, on order and on equality, which pass over an absent value. Those
on whether a value is there do not. -/
def passesOver : Rule → Bool
  | absent => false
  | present => false
  | _ => true

theorem judgeContent_of_passesOver {r : Rule} (h : r.passesOver = true) (c : Content) :
    r.judgeContent c = c.present?.bind r.judge := by
  cases r with
  | absent | present => cases h
  | length | content | order | equalTo | differentFrom => rfl

theorem judge_content_of_not_text {j : Json} (h : ∀ s, j ≠ .text s) (t : TextRule) :
    (content t).judge (.json j) = none := by
  have ht : Value.text? (.json j) = none := by
    cases j with
    | text s => exact absurd rfl (h s)
    | null | bool | number | array | object => rfl
  simp only [judge, ht, Option.map_none]

theorem judge_order_of_not_number {j : Json} (h : ∀ n, j ≠ .number n) (o : OrderRule Json) :
    (order o).judge (.json j) = none := by
  have hq : Value.quantity? (.json j) = none := by
    cases j with
    | number n => exact absurd rfl (h n)
    | null | bool | text | array | object => rfl
  simp only [judge, hq, Option.bind_none]

end Rule

namespace Node

theorem apply_congr {r : Rule} {c d : Content} (h : r.judgeContent c = r.judgeContent d)
    (p : Path) (run : RunId) : Node.apply ⟨c, p, run⟩ r = Node.apply ⟨d, p, run⟩ r := by
  unfold apply judge declare
  rw [h]

structure Alike (n m : Node Content) : Prop where
  path : n.path = m.path
  run : n.run = m.run
  present : n.value.present? = m.value.present?

theorem Alike.apply_eq {n m : Node Content} (h : n.Alike m) {r : Rule}
    (hr : r.passesOver = true) : n.apply r = m.apply r := by
  obtain ⟨c, p, run⟩ := n
  obtain ⟨d, q, run'⟩ := m
  obtain ⟨rfl, rfl, hv⟩ : p = q ∧ run = run' ∧ c.present? = d.present? := ⟨h.path, h.run, h.present⟩
  have hj : r.judgeContent c = r.judgeContent d := by
    rw [Rule.judgeContent_of_passesOver hr, Rule.judgeContent_of_passesOver hr, hv]
  exact apply_congr hj p run

theorem run_apply_of_unjudged {n : Node Content} {r : Rule} (h : r.judgeContent n.value = none)
    (rs : Runs) :
    (n.apply r).run rs =
      if (rs.ledger n.run).completed then (.error (.runCompleted n.path), rs)
      else (.ok ⟨true, n.path, none, false, .rule r.name, n.run, false⟩, rs) := by
  have hp : r.passes n.value = true := by rw [Rule.passes, h]; rfl
  rw [run_apply, hp]
  simp only [Constraint.judged_true, Runs.setEntries_self]

end Node

/-- What leads from an owner to a value to be judged: fields of fields, some of which may be absent
even when their owner is there. -/
inductive Access : Type → Type 1 where
  | value {α : Type} (content : α → Value) : Access α
  | field {α β : Type} (accessor : Accessor α β) (rest : Access β) : Access α
  | option {β : Type} (rest : Access β) : Access (Option β)

namespace Access

variable {α : Type}

def nullable {α : Type} : Access α → Node (Option α) → Node Content
  | value content, owner => Bookshelf.nullable owner content
  | field accessor rest, owner => rest.nullable (accessor.nullable owner)
  | option rest, owner => rest.nullable owner.flatten

def plain {α : Type} : Access α → Node α → Node Content
  | value content, owner => Bookshelf.required owner content
  | field accessor rest, owner => rest.plain (accessor.node owner)
  | option rest, owner => rest.nullable owner

theorem alike_nullable (w : Access α) (owner : α) (p : Path) (run : RunId) :
    (w.nullable ⟨some owner, p, run⟩).Alike (w.plain ⟨owner, p, run⟩) := by
  induction w generalizing p with
  | value content => exact ⟨rfl, rfl, rfl⟩
  | field accessor rest ih => exact ih (accessor.get owner) (p.push accessor.name)
  | option rest =>
    have hn : Node.flatten ⟨some owner, p, run⟩ = ⟨owner, p, run⟩ :=
      congrArg (Node.mk owner · run) p.push_empty
    -- From here on both ways lead through the same steps.
    rw [nullable, hn]
    exact ⟨rfl, rfl, rfl⟩

theorem absent_nullable (w : Access α) (p : Path) (run : RunId) :
    (w.nullable ⟨none, p, run⟩).value.present? = none ∧ (w.nullable ⟨none, p, run⟩).run = run := by
  induction w generalizing p with
  | value content => exact ⟨rfl, rfl⟩
  | field accessor rest ih => exact ih (p.push accessor.name)
  | option rest ih => exact ih (p.push "")

end Access

structure Demand (α : Type) where
  access : Access α
  rule : Rule
  message : Option String

namespace Demand

variable {α : Type}

def declareOn (d : Demand α) (n : Node Content) : Registry Constraint := do
  let c ← n.apply d.rule
  match d.message with
  | some message => c.otherwise message
  | none => return c

def declarePlain (ds : List (Demand α)) (owner : Node α) : Registry (List Constraint) :=
  ds.mapM fun d => d.declareOn (d.access.plain owner)

def declareNullable (ds : List (Demand α)) (owner : Node (Option α)) :
    Registry (List Constraint) :=
  ds.mapM fun d => d.declareOn (d.access.nullable owner)

theorem declareOn_eq_of_alike {d : Demand α} (hr : d.rule.passesOver = true) {n m : Node Content}
    (h : n.Alike m) : d.declareOn n = d.declareOn m := by
  unfold declareOn
  rw [h.apply_eq hr]

theorem declareNullable_some {ds : List (Demand α)} (hr : ∀ d ∈ ds, d.rule.passesOver = true)
    (owner : α) (p : Path) (run : RunId) :
    declareNullable ds ⟨some owner, p, run⟩ = declarePlain ds ⟨owner, p, run⟩ := by
  unfold declareNullable declarePlain
  induction ds with
  | nil => rfl
  | cons d ds ih =>
    have hd := declareOn_eq_of_alike (hr d List.mem_cons_self) (d.access.alike_nullable owner p run)
    rw [List.mapM_cons, List.mapM_cons, hd, ih fun e he => hr e (List.mem_cons_of_mem d he)]

theorem run_declareOn_of_absent {d : Demand α} (hr : d.rule.passesOver = true) {n : Node Content}
    (hn : n.value.present? = none) {rs : Runs} (ho : (rs.ledger n.run).completed = false) :
    (d.declareOn n).run rs =
      (.ok ⟨true, n.path, none, false, .rule d.rule.name, n.run, false⟩, rs) := by
  have hj : d.rule.judgeContent n.value = none := by
    rw [Rule.judgeContent_of_passesOver hr, hn, Option.bind_none]
  unfold declareOn
  rw [Registry.run_bind, Node.run_apply_of_unjudged hj, if_neg (by simp [ho])]
  cases d.message with
  | none => rfl
  | some message => exact Constraint.run_otherwise ..

theorem run_declareNullable_none {ds : List (Demand α)}
    (hr : ∀ d ∈ ds, d.rule.passesOver = true) (p : Path) (run : RunId) {rs : Runs}
    (ho : (rs.ledger run).completed = false) :
    ∃ cs, (declareNullable ds ⟨none, p, run⟩).run rs = (.ok cs, rs) ∧
      cs.length = ds.length ∧ ∀ c ∈ cs, c.satisfied = true ∧ c.message = none := by
  unfold declareNullable
  induction ds with
  | nil => exact ⟨[], rfl, rfl, by simp⟩
  | cons d ds ih =>
    obtain ⟨hn, hrun⟩ := d.access.absent_nullable p run
    have hd := run_declareOn_of_absent (hr d List.mem_cons_self) hn (hrun.symm ▸ ho)
    obtain ⟨cs, hcs, hl, hc⟩ := ih fun e he => hr e (List.mem_cons_of_mem d he)
    let c : Constraint := ⟨true, (d.access.nullable ⟨none, p, run⟩).path, none, false,
      .rule d.rule.name, (d.access.nullable ⟨none, p, run⟩).run, false⟩
    have hrest : ExceptT.run (ds.mapM fun d : Demand α =>
        d.declareOn (d.access.nullable ⟨none, p, run⟩)) rs = (.ok cs, rs) := hcs
    refine ⟨c :: cs, ?_, congrArg (· + 1) hl, List.forall_mem_cons.mpr ⟨⟨rfl, rfl⟩, hc⟩⟩
    rw [List.mapM_cons, Registry.run_bind, hd]
    dsimp only
    rw [Registry.run_bind, hrest]
    rfl

end Demand

/-- A rule that passes over absent values does on an optional node that holds a value what it does
on a plain one, and on an absent value it is satisfied, has no message and leaves no trace. Rules on
texts and on order take documents that are no text or no number for absent. So rules declared for an
owner that may be absent come to the same as rules declared for the owner, and if it is absent, to
nothing. -/
theorem Node.nullable_lifts :
    (∀ (r : Rule) (v : Value) (p : Path) (run : RunId) (rs : Runs), r.passesOver = true →
      (Node.apply ⟨.optional (some v), p, run⟩ r).run rs =
        (Node.apply ⟨.plain v, p, run⟩ r).run rs ∧
      (Node.apply ⟨.optional none, p, run⟩ r).run rs =
        if (rs.ledger run).completed then (.error (.runCompleted p), rs)
        else (.ok ⟨true, p, none, false, .rule r.name, run, false⟩, rs)) ∧
    (∀ (c : Content) (j : Json) (p : Path) (run : RunId), c.present? = some (.json j) →
      ((∀ s, j ≠ .text s) → ∀ t : TextRule,
        Node.apply ⟨c, p, run⟩ (.content t) = Node.apply ⟨.optional none, p, run⟩ (.content t)) ∧
      ((∀ n, j ≠ .number n) → ∀ o : OrderRule Json,
        Node.apply ⟨c, p, run⟩ (.order o) = Node.apply ⟨.optional none, p, run⟩ (.order o))) ∧
    ∀ (α : Type) (ds : List (Demand α)) (p : Path) (run : RunId) (rs : Runs),
      (∀ d ∈ ds, d.rule.passesOver = true) →
      (∀ owner, (Demand.declareNullable ds ⟨some owner, p, run⟩).run rs =
        (Demand.declarePlain ds ⟨owner, p, run⟩).run rs) ∧
      ((rs.ledger run).completed = false →
        ∃ cs, (Demand.declareNullable ds ⟨none, p, run⟩).run rs = (.ok cs, rs) ∧
          cs.length = ds.length ∧ ∀ c ∈ cs, c.satisfied = true ∧ c.message = none) := by
  refine ⟨fun r v p run rs hr => ⟨?_, ?_⟩, fun c j p run hc => ⟨fun h t => ?_, fun h o => ?_⟩, ?_⟩
  · have ha : Alike ⟨.optional (some v), p, run⟩ ⟨.plain v, p, run⟩ := ⟨rfl, rfl, rfl⟩
    rw [ha.apply_eq hr]
  · have hj : r.judgeContent (.optional none) = none := Rule.judgeContent_of_passesOver hr _
    exact run_apply_of_unjudged hj rs
  · have hj : (Rule.content t).judgeContent c = none := by
      rw [Rule.judgeContent_of_passesOver rfl, hc]
      exact Rule.judge_content_of_not_text h t
    exact apply_congr hj p run
  · have hj : (Rule.order o).judgeContent c = none := by
      rw [Rule.judgeContent_of_passesOver rfl, hc]
      exact Rule.judge_order_of_not_number h o
    exact apply_congr hj p run
  · intro α ds p run rs hr
    refine ⟨fun owner => ?_, fun ho => Demand.run_declareNullable_none hr p run ho⟩
    rw [Demand.declareNullable_some hr owner p run]

namespace Bookshelf

def demands : List (Demand Book) :=
  [⟨.field Book.titleField (.value .text), .content .notBlank, none⟩,
    ⟨.field Book.authorField (.option (.field Author.nameField (.value .text))),
      .length (.bounded .atLeast 2), some "Who is that?"⟩,
    ⟨.field Book.authorField (.option (.field Author.emailField (.option (.value .text)))),
      .content (.containing "@"), none⟩]

theorem demands_lifted :
    let book : Book := ⟨" ", 1, some ⟨"A", some "nowhere"⟩, []⟩
    let rs := Runs.none.start.2
    let found (act : Registry (List Constraint)) := ((act.run rs).2.complete 0 "").1
    found (Demand.declareNullable demands ⟨some book, .root, 0⟩) =
        found (Demand.declarePlain demands ⟨book, .root, 0⟩) ∧
      found (Demand.declarePlain demands ⟨book, .root, 0⟩) =
        [⟨.ofList ["title"], "Must not be blank"⟩, ⟨.ofList ["author", "name"], "Who is that?"⟩,
          ⟨.ofList ["author", "email"], "Must contain \"@\""⟩] ∧
      found (Demand.declareNullable demands ⟨none, .root, 0⟩) = [] ∧
      (Node.apply ⟨.optional (some (.json .null)), .root, 0⟩ (.content .notBlank)).run rs =
        (Node.apply ⟨.optional none, .root, 0⟩ (.content .notBlank)).run rs ∧
      (Node.apply ⟨.optional (some (.text " ")), .root, 0⟩ (.content .notBlank)).run rs =
        (Node.apply ⟨.plain (.text " "), .root, 0⟩ (.content .notBlank)).run rs := by
  intro book rs found
  obtain ⟨hb, hj, hd⟩ := Node.nullable_lifts
  have hr : ∀ d ∈ demands, d.rule.passesOver = true := by decide
  obtain ⟨hs, hn⟩ := hd Book demands .root 0 rs hr
  obtain ⟨cs, hcs, -⟩ := hn rfl
  refine ⟨?_, by decide +kernel, ?_, ?_, (hb (.content .notBlank) (.text " ") .root 0 rs rfl).1⟩
  · simp only [found, hs book]
  · simp only [found, hcs]
    rfl
  · rw [(hj (.optional (some (.json .null))) .null .root 0 rfl).1 nofun .notBlank]

end Bookshelf

end Vetting
