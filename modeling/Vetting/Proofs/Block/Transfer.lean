import Vetting.Proofs.Block.Faithful
import Vetting.Proofs.Run.Transfer

/-! Two executions of the same block, each on a node of a run of its own. As long as the block acts
on that run only and its names stand for things that correspond, both end in the same way, and what
they leave corresponds. -/

namespace Vetting

structure Scope.Within (sc : Scope) (run : RunId) : Prop where
  nodes : ∀ n ∈ sc.nodes.values, n.run = run
  constraints : ∀ c ∈ sc.constraints.values, c.run = run
  futures : ∀ f ∈ sc.futures.values, f.node.run = run

theorem Scope.within_empty (run : RunId) : Scope.empty.Within run where
  nodes := fun _ h => absurd h List.not_mem_nil
  constraints := fun _ h => absurd h List.not_mem_nil
  futures := fun _ h => absurd h List.not_mem_nil

namespace Mapping

variable (m : Mapping)

def future (f : Future) : Future := { f with node := m.node f.node }

def scope (sc : Scope) : Scope :=
  ⟨sc.nodes.mapValues m.node, sc.constraints.mapValues m.constraint,
    sc.futures.mapValues m.future⟩

def halt : Halt → Halt
  | .misused misuse => .misused (misuse.placed m.place)
  | h => h

end Mapping

namespace Transfer

theorem follow?_node (L : Transfer) (n : Node Content) (step : Derivation) :
    step.follow? (L.node n) = (step.follow? n).map L.node := by
  have hd : ∀ name, L.node ∘ n.derive name = (L.node n).derive name := fun name =>
    funext fun c => L.node_derive n name c
  cases step <;> simp only [Derivation.follow?, Option.map_map, Option.map_some, hd]
  case fieldThrough | optionalField | key | dereference =>
    simp only [Node.key, Node.optionalField, Node.map, Node.derive, Mapping.node, L.push]
  all_goals rfl

theorem nodes_node (L : Transfer) (n : Node Content) (way : Traversal) :
    way.nodes (L.node n) = (way.nodes n).map L.node := by
  have hd : L.node ∘ n.derive none = (L.node n).derive none :=
    funext fun c => L.node_derive n none c
  simp only [Traversal.nodes, List.map_map, hd]
  rfl

/-- What has been done in the one state corresponds to what has been done in the other: the names
stand for the same things of the two runs, and so do the constraints in hand. -/
structure Agree (L : Transfer) (held : List Constraint) (s t : State) : Prop where
  scope : t.scope = L.scope s.scope
  within : s.scope.Within L.source
  owing : ∀ c ∈ held, c.run = L.source
  opened : (s.runs.ledger L.source).completed = false
  opened' : (t.runs.ledger L.target).completed = false
  corresponds : L.corresponds
    ⟨(s.runs.ledger L.source).entries, held ++ s.scope.constraints.values⟩
    (t.runs.ledger L.target).entries

variable {L : Transfer} {held held' : List Constraint} {s t s' t' : State}

theorem Agree.frame (h : L.Agree held s t) (hs : s'.scope = s.scope) (hr : s'.runs = s.runs)
    (ht : t'.scope = t.scope) (hr' : t'.runs = t.runs) : L.Agree held s' t' where
  scope := by rw [ht, hs, h.scope]
  within := hs ▸ h.within
  owing := h.owing
  opened := hr ▸ h.opened
  opened' := hr' ▸ h.opened'
  corresponds := by
    rw [hr, hr', hs]
    exact h.corresponds

theorem Agree.rescope (h : L.Agree held s t) {sc : Scope} (hs : s'.scope = sc)
    (hr : s'.runs = s.runs) (ht : t'.scope = L.scope sc) (hr' : t'.runs = t.runs)
    (hw : sc.Within L.source) (hh : ∀ c ∈ held', c.run = L.source)
    (hp : (held' ++ sc.constraints.values).Subperm (held ++ s.scope.constraints.values)) :
    L.Agree held' s' t' where
  scope := by rw [ht, hs]
  within := hs ▸ hw
  owing := hh
  opened := hr ▸ h.opened
  opened' := hr' ▸ h.opened'
  corresponds := by
    rw [hr, hr', hs]
    exact L.fewer h.corresponds hp

theorem Agree.update (h : L.Agree held s t) {es fs : Entries}
    (hs : s'.scope = s.scope) (hr : s'.runs = s.runs.setEntries L.source es)
    (ht : t'.scope = t.scope) (hr' : t'.runs = t.runs.setEntries L.target fs)
    (hh : ∀ c ∈ held', c.run = L.source)
    (hp : L.corresponds ⟨es, held' ++ s.scope.constraints.values⟩ fs) :
    L.Agree held' s' t' where
  scope := by rw [ht, hs, h.scope]
  within := hs ▸ h.within
  owing := hh
  opened := by rw [hr, Runs.completed_setEntries, h.opened]
  opened' := by rw [hr', Runs.completed_setEntries, h.opened']
  corresponds := by
    rw [hr, hr', hs, Runs.entries_setEntries_self _ h.opened,
      Runs.entries_setEntries_self _ h.opened']
    exact hp

theorem Agree.release (h : L.Agree held s t) : L.Agree [] s t :=
  h.rescope rfl rfl h.scope rfl h.within (by simp) (List.sublist_append_right ..).subperm

structure Matches (L : Transfer) (rs rs' : Runs) : Prop where
  opened : (rs.ledger L.source).completed = false
  opened' : (rs'.ledger L.target).completed = false
  corresponds : L.corresponds ⟨(rs.ledger L.source).entries, []⟩ (rs'.ledger L.target).entries

theorem Agree.matches (h : L.Agree held s t) : L.Matches s.runs t.runs where
  opened := h.opened
  opened' := h.opened'
  corresponds := L.fewer h.corresponds (List.nil_subperm)

theorem Matches.agree (h : L.Matches s.runs t.runs) :
    L.Agree [] { s with scope := .empty } { t with scope := .empty } where
  scope := rfl
  within := Scope.within_empty L.source
  owing := fun _ hc => absurd hc List.not_mem_nil
  opened := h.opened
  opened' := h.opened'
  corresponds := h.corresponds

/-- The ways in which two actions may end: both return, both are halted for the same reason with
their collections in correspondence, or the other side is given up, where that is let pass. -/
inductive Ends {α β : Type} (L : Transfer) (Q : α → β → State → State → Prop) :
    Except Halt α × State → Except Halt β × State → Prop where
  | returned {a : α} {b : β} {s t : State} : Q a b s t → Ends L Q (.ok a, s) (.ok b, t)
  | halted (h : Halt) {s t : State} :
    L.Matches s.runs t.runs → Ends L Q (.error h, s) (.error (L.halt h), t)
  | givenUp (r : Except Halt α × State) (t : State) :
    L.lenient → Ends L Q r (.error .abandoned, t)

end Transfer

namespace Action

variable {α α' β β' : Type} {L : Transfer}

def Follows (L : Transfer) (P : State → State → Prop) (act : Action α) (act' : Action α')
    (Q : α → α' → State → State → Prop) : Prop :=
  ∀ s t, P s t → L.Ends Q (act.run s) (act'.run t)

abbrev Steps (L : Transfer) (act act' : Action Unit) : Prop :=
  Follows L (L.Agree []) act act' fun _ _ => L.Agree []

section

variable {P P' : State → State → Prop} {Q : α → α' → State → State → Prop}
  {R : β → β' → State → State → Prop} {act : Action α} {act' : Action α'}

theorem Follows.pre (h : Follows L P act act' Q) (hp : ∀ s t, P' s t → P s t) :
    Follows L P' act act' Q := fun s t hs => h s t (hp s t hs)

theorem follows_pure {a : α} {b : α'} (h : ∀ s t, P s t → Q a b s t) :
    Follows L P (pure a) (pure b) Q := fun s t hs => .returned (h s t hs)

theorem follows_throw (h : Halt) : Follows L (L.Agree []) (throw h) (throw (L.halt h)) Q :=
  fun _ _ hs => .halted h hs.matches

theorem Follows.bind {f : α → Action β} {g : α' → Action β'} (h : Follows L P act act' Q)
    (hf : ∀ a b, Follows L (Q a b) (f a) (g b) R) :
    Follows L P (act >>= f) (act' >>= g) R := by
  intro s t hs
  have he := h s t hs
  rw [run_bind, run_bind]
  generalize act.run s = r at he
  generalize act'.run t = r' at he
  cases he with
  | returned hq => exact hf _ _ _ _ hq
  | halted h hm => exact .halted h hm
  | givenUp r t hl => exact .givenUp _ t hl

theorem follows_get : Follows L P get get fun a b s t => a = s ∧ b = t ∧ P s t :=
  fun _ _ h => .returned ⟨rfl, rfl, h⟩

theorem follows_forM {l : List β} {f : β → β'} {act : β → Action Unit} {act' : β' → Action Unit}
    (h : ∀ b ∈ l, Steps L (act b) (act' (f b))) : Steps L (l.forM act) ((l.map f).forM act') := by
  induction l with
  | nil => exact follows_pure fun _ _ hs => hs
  | cons b l ih =>
    have hl : Steps L (l.forM act) ((l.map f).forM act') := ih fun c hc =>
      h c (List.mem_cons_of_mem b hc)
    exact Follows.bind (h b List.mem_cons_self) fun _ _ => hl

end

section

variable {held : List Constraint}

theorem follows_emit (e e' : Event) :
    Follows L (L.Agree held) (emit e) (emit e') fun _ _ => L.Agree held :=
  fun _ _ h => .returned (h.frame rfl rfl rfl rfl)

theorem steps_bindNode (x : Name) {n : Node Content} (hn : n.run = L.source) :
    Steps L (bindNode x n) (bindNode x (L.node n)) := by
  intro s t h
  have hw : Scope.Within { s.scope with nodes := s.scope.nodes.set x n } L.source :=
    { nodes := Bindings.forall_values_set h.within.nodes x hn
      constraints := h.within.constraints
      futures := h.within.futures }
  refine .returned (h.rescope rfl rfl ?_ rfl hw (by simp) (List.Subperm.refl _))
  change { t.scope with nodes := t.scope.nodes.set x (L.node n) } = _
  rw [h.scope]
  simp only [Mapping.scope, Bindings.set_mapValues]

theorem steps_bindFuture (x : Name) {f : Future} (hf : f.node.run = L.source) :
    Steps L (bindFuture x f) (bindFuture x (L.future f)) := by
  intro s t h
  have hw : Scope.Within { s.scope with futures := s.scope.futures.set x f } L.source :=
    { nodes := h.within.nodes
      constraints := h.within.constraints
      futures := Bindings.forall_values_set h.within.futures x hf }
  refine .returned (h.rescope rfl rfl ?_ rfl hw (by simp) (List.Subperm.refl _))
  change { t.scope with futures := t.scope.futures.set x (L.future f) } = _
  rw [h.scope]
  simp only [Mapping.scope, Bindings.set_mapValues]

theorem follows_takeFuture (x : Name) :
    Follows L (L.Agree []) (takeFuture x) (takeFuture x) fun f f' s t =>
      f' = f.map L.future ∧ (∀ g ∈ f, g.node.run = L.source) ∧ L.Agree [] s t := by
  intro s t h
  have hw : Scope.Within { s.scope with futures := s.scope.futures.erase x } L.source :=
    { nodes := h.within.nodes
      constraints := h.within.constraints
      futures := fun g hg => h.within.futures g (Bindings.mem_values_erase hg) }
  refine .returned ⟨?_, fun g hg => ?_, ?_⟩
  · rw [h.scope]
    exact Bindings.get?_mapValues ..
  · exact h.within.futures g (Bindings.mem_values_of_get? hg)
  · refine h.rescope rfl rfl ?_ rfl hw (by simp) (List.Subperm.refl _)
    change { t.scope with futures := t.scope.futures.erase x } = _
    rw [h.scope]
    simp only [Mapping.scope, Bindings.erase_mapValues]

theorem follows_withNode {P : State → State → Prop} (hp : ∀ s t, P s t → L.Agree [] s t) {x : Name}
    {act act' : Node Content → Action Unit}
    (h : ∀ n, n.run = L.source →
      Follows L P (act n) (act' (L.node n)) fun _ _ => L.Agree []) :
    Follows L P (withNode x act) (withNode x act') fun _ _ => L.Agree [] := by
  intro s t hs
  have ha := hp s t hs
  have ht : t.scope.nodes.get? x = (s.scope.nodes.get? x).map L.node := by
    rw [ha.scope]
    exact Bindings.get?_mapValues ..
  rw [run_withNode, run_withNode, ht]
  cases hx : s.scope.nodes.get? x with
  | some n => exact h n (ha.within.nodes n (Bindings.mem_values_of_get? hx)) s t hs
  | none => exact follows_emit .unbound .unbound s t ha

theorem steps_withNode {x : Name} {act act' : Node Content → Action Unit}
    (h : ∀ n, n.run = L.source → Steps L (act n) (act' (L.node n))) :
    Steps L (withNode x act) (withNode x act') := follows_withNode (fun _ _ hs => hs) h

def Finds (L : Transfer) (x : Name) (c : Constraint) (s t : State) : Prop :=
  L.Agree [] s t ∧ s.scope.constraints.get? x = some c

theorem steps_withConstraint {x : Name} {act act' : Constraint → Action Unit}
    (h : ∀ c, Follows L (Finds L x c) (act c) (act' (L.constraint c)) fun _ _ => L.Agree []) :
    Steps L (withConstraint x act) (withConstraint x act') := by
  intro s t hs
  have ht : t.scope.constraints.get? x = (s.scope.constraints.get? x).map L.constraint := by
    rw [hs.scope]
    exact Bindings.get?_mapValues ..
  rw [run_withConstraint, run_withConstraint, ht]
  cases hx : s.scope.constraints.get? x with
  | some c => exact h c s t ⟨hs, hx⟩
  | none => exact follows_emit .unbound .unbound s t hs

theorem follows_dropConstraint (x : Name) (c : Constraint) :
    Follows L (Finds L x c) (dropConstraint x) (dropConstraint x) fun _ _ => L.Agree [c] := by
  rintro s t ⟨h, hx⟩
  have hw : Scope.Within { s.scope with constraints := s.scope.constraints.erase x } L.source :=
    { nodes := h.within.nodes
      constraints := fun d hd => h.within.constraints d (Bindings.mem_values_erase hd)
      futures := h.within.futures }
  have hc : c.run = L.source := h.within.constraints c (Bindings.mem_values_of_get? hx)
  refine .returned
    (h.rescope rfl rfl ?_ rfl hw (by simpa using hc) (Bindings.subperm_of_get? hx))
  change { t.scope with constraints := t.scope.constraints.erase x } = _
  rw [h.scope]
  simp only [Mapping.scope, Bindings.erase_mapValues]

theorem follows_bindConstraint (x : Option Name) (c : Constraint) :
    Follows L (L.Agree [c]) (bindConstraint x c) (bindConstraint x (L.constraint c))
      fun _ _ => L.Agree [] := by
  intro s t h
  cases x with
  | none => exact .returned h.release
  | some x =>
    have hw : Scope.Within { s.scope with constraints := s.scope.constraints.set x c } L.source :=
      { nodes := h.within.nodes
        constraints := Bindings.forall_values_set h.within.constraints x
          (h.owing c (List.mem_singleton_self c))
        futures := h.within.futures }
    have hp := ((Bindings.erase_sublist s.scope.constraints x).cons_cons c).subperm
    refine .returned (h.rescope rfl rfl ?_ rfl hw (by simp) hp)
    change { t.scope with constraints := t.scope.constraints.set x (L.constraint c) } = _
    rw [h.scope]
    simp only [Mapping.scope, Bindings.set_mapValues]

theorem run_insist_of_ok {q : Request} {s : State} {a : q.Answer} {rs : Runs}
    (h : q.perform.run s.runs = (.ok a, rs)) :
    (insist q).run s = (.ok a, { s with runs := rs, deeds := s.deeds.push (.ask q) }) := by
  rw [insist, run_bind, run_attempt, h]
  rfl

theorem run_attempt_of_eq {q : Request} {s : State} {a : Except Misuse q.Answer} {rs : Runs}
    (h : q.perform.run s.runs = (a, rs)) :
    (attempt q).run s = (.ok a, { s with runs := rs, deeds := s.deeds.push (.ask q) }) := by
  rw [run_attempt, h]

theorem follows_declare {n : Node Content} (hn : n.run = L.source) (satisfied : Bool)
    (origin : Origin) :
    Follows L (L.Agree []) (insist (.declare n satisfied origin))
      (insist (.declare (L.node n) satisfied origin)) fun c d s t =>
        d = L.constraint c ∧ L.Agree [c] s t := by
  intro s t h
  obtain ⟨he, hp⟩ := L.declared satisfied n.path origin h.corresponds
  have ho := h.opened
  rw [← hn] at ho
  rw [run_insist_of_ok (Request.perform_declare_of_open ho satisfied origin),
    run_insist_of_ok (Request.perform_declare_of_open (n := L.node n) h.opened' satisfied origin),
    hn]
  exact .returned ⟨he, h.update rfl rfl rfl rfl (by simp) hp⟩

theorem follows_apply {n : Node Content} (hn : n.run = L.source) (r : Rule) :
    Follows L (L.Agree []) (insist (.apply n r)) (insist (.apply (L.node n) r)) fun c d s t =>
      d = L.constraint c ∧ L.Agree [c] s t := by
  intro s t h
  obtain ⟨he, hp⟩ := L.judged (r.passes n.value) n.path r.name (r.complaint n.value) h.corresponds
  have ho := h.opened
  rw [← hn] at ho
  rw [run_insist_of_ok (Request.perform_apply_of_open ho r),
    run_insist_of_ok (Request.perform_apply_of_open (n := L.node n) h.opened' r), hn]
  exact .returned ⟨he, h.update rfl rfl rfl rfl (by simp) hp⟩

theorem follows_otherwise (c : Constraint) (message : String) :
    Follows L (L.Agree [c]) (attempt (.otherwise c message))
      (attempt (.otherwise (L.constraint c) message)) fun a b s t =>
        (∃ d, a = .ok d ∧ b = .ok (L.constraint d) ∧ L.Agree [d] s t) ∨
          ∃ m, a = .error m ∧ b = .error (m.placed L.place) ∧ L.Agree [] s t := by
  intro s t h
  have hc : c.run = L.source := h.owing c (List.mem_singleton_self c)
  cases hd : c.declines message with
  | true =>
    have hs := run_attempt_of_eq (q := .otherwise c message)
      (Constraint.run_otherwise_of_declines hd s.runs)
    have ht := run_attempt_of_eq (q := .otherwise (L.constraint c) message)
      (Constraint.run_otherwise_of_declines (c := L.constraint c) hd t.runs)
    rw [hs, ht]
    exact .returned (.inr ⟨_, rfl, rfl, h.release.frame rfl rfl rfl rfl⟩)
  | false =>
    obtain ⟨he, hp⟩ := L.messaged message h.corresponds List.mem_cons_self hc
    have ho := h.opened
    rw [← hc] at ho
    have hs := run_attempt_of_eq (q := .otherwise c message)
      (Constraint.run_otherwise_of_not_declines hd ho)
    have ht := run_attempt_of_eq (q := .otherwise (L.constraint c) message)
      (Constraint.run_otherwise_of_not_declines (c := L.constraint c) hd h.opened')
    rw [hs, ht, hc]
    have hr : ∀ es, ∀ d ∈ [(c.messaged message es).1], d.run = L.source := fun es d hd => by
      rw [List.mem_singleton.mp hd, Constraint.run_messaged, hc]
    rw [Progress.drop, List.singleton_append, List.erase_cons_head] at hp
    exact .returned
      (.inl ⟨_, rfl, congrArg Except.ok he, h.update rfl rfl rfl rfl (hr _) hp⟩)

theorem follows_register {x : Name} {n : Node Content} (hn : n.run = L.source) (c : Constraint) :
    Follows L (Finds L x c) (attempt (.register n c))
      (attempt (.register (L.node n) (L.constraint c)))
      fun a b s t => (∃ x, a = .ok x) ∧ (∃ y, b = .ok y) ∧ L.Agree [] s t := by
  rintro s t ⟨h, hx⟩
  have hm : c ∈ s.scope.constraints.values := Bindings.mem_values_of_get? hx
  have hc : c.run = n.run := (h.within.constraints c hm).trans hn.symm
  have ho := h.opened
  rw [← hn] at ho
  rw [run_attempt_of_eq (Request.perform_register_of_open ho hc),
    run_attempt_of_eq (Request.perform_register_of_open (n := L.node n) (c := L.constraint c)
      h.opened' rfl), hn]
  refine .returned ⟨⟨(), rfl⟩, ⟨(), rfl⟩, h.update rfl rfl rfl rfl (by simp) ?_⟩
  change L.corresponds ⟨if c.satisfied then _ else _, _⟩ (if c.satisfied then _ else _)
  split
  · exact h.corresponds
  · exact L.insert h.corresponds (.inl (Option.some_ne_none c.origin))

theorem follows_report {n : Node Content} (hn : n.run = L.source) {path : Option Path}
    (hp : ∀ q ∈ path, L.place q = q) (message : String) :
    Follows L (L.Agree []) (attempt (.report n ⟨path.getD n.path, message⟩))
      (attempt (.report (L.node n) ⟨path.getD (L.node n).path, message⟩))
      fun a b s t => (∃ x, a = .ok x) ∧ (∃ y, b = .ok y) ∧ L.Agree [] s t := by
  intro s t h
  have he : path.getD (L.node n).path = L.place (path.getD n.path) := by
    cases path with
    | none => rfl
    | some q => exact (hp q rfl).symm
  have ho := h.opened
  rw [← hn] at ho
  rw [run_attempt_of_eq (Request.perform_report_of_open ho _),
    run_attempt_of_eq (Request.perform_report_of_open (n := L.node n) h.opened' _), hn, he]
  exact .returned ⟨⟨(), rfl⟩, ⟨(), rfl⟩, h.update rfl rfl rfl rfl (by simp)
    (L.insert h.corresponds (.inr (Option.some_ne_none message)))⟩

theorem follows_settle {P : State → State → Prop} {q q' : Request}
    (h : Follows L P (attempt q) (attempt q') fun a b s t =>
      (∃ x, a = .ok x) ∧ (∃ y, b = .ok y) ∧ L.Agree [] s t)
    (reaction : Reaction) :
    Follows L P (settle reaction q) (settle reaction q') fun _ _ => L.Agree [] := by
  refine h.bind fun a b => ?_
  rintro s t ⟨⟨x, rfl⟩, ⟨y, rfl⟩, hs⟩
  exact follows_emit .accepted .accepted s t hs

end

/-- From this state the action ends in the same way, and does the same to the runs, if no name
stands for anything yet: it uses none that it has not given a meaning itself. -/
def SelfContained (act : Action Unit) (s : State) : Prop :=
  (act.run { s with scope := .empty }).1 = (act.run s).1 ∧
    (act.run { s with scope := .empty }).2.runs = (act.run s).2.runs

theorem SelfContained.ends {act act' : Action Unit} {s t : State} (h : act.SelfContained s)
    (h' : act'.SelfContained t) (hl : Steps L act act') (hm : L.Matches s.runs t.runs) :
    L.Ends (fun _ _ s' t' => L.Matches s'.runs t'.runs) (act.run s) (act'.run t) := by
  have he := hl _ _ hm.agree
  obtain ⟨h1, h2⟩ := h
  obtain ⟨h1', h2'⟩ := h'
  generalize act.run { s with scope := .empty } = r at he h1 h2
  generalize act'.run { t with scope := .empty } = r' at he h1' h2'
  generalize act.run s = p at h1 h2 ⊢
  generalize act'.run t = p' at h1' h2' ⊢
  obtain ⟨o, s'⟩ := p
  obtain ⟨o', t'⟩ := p'
  cases he with
  | returned ha =>
    cases h1
    cases h1'
    refine .returned ?_
    rw [← h2, ← h2']
    exact ha.matches
  | halted halt hm =>
    cases h1
    cases h1'
    rw [h2, h2'] at hm
    exact .halted halt hm
  | givenUp r u hl =>
    cases h1'
    exact .givenUp _ t' hl

end Action

end Vetting
