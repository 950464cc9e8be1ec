import Vetting.Proofs.Block.Provenance
import Vetting.Proofs.Run.World
import Vetting.Session

/-! Sessions and what is asked in them. Whatever a block does to runs it does by requests, and each
request about a constraint is about one that exists; so the runs of a session are what its deeds
have brought about. And whatever names a node has passed through, it came from a root. -/

namespace Vetting

namespace State

def world (s : State) : World := .after s.deeds.toList

/-- The runs are those of the world, where the constraints in hand and the constraints that names
stand for exist. -/
structure Faithful (s : State) (held : List Constraint) : Prop where
  runs : s.world.runs = s.runs
  exist : (held ++ s.scope.constraints.values).Subperm s.world.constraints

theorem Faithful.weaken {s : State} {held : List Constraint} (h : s.Faithful held) :
    s.Faithful [] where
  runs := h.runs
  exist := (List.sublist_append_right held _).subperm.trans h.exist

theorem Faithful.answering {s : State} {held : List Constraint} (h : s.Faithful held)
    (events : Array Event) : State.Faithful { s with events } held := ⟨h.runs, h.exist⟩

structure Traced (roots : Node Content → Prop) (s : State) : Prop
    extends s.Faithful [], s.Rooted roots

theorem Faithful.traced {s : State} (h : s.Faithful []) : s.Traced fun _ => True :=
  ⟨h, s.rooted_any⟩

theorem Traced.mono {s : State} {roots roots' : Node Content → Prop} (h : s.Traced roots)
    (hs : ∀ root, roots root → roots' root) : s.Traced roots' := ⟨h.toFaithful, h.toRooted.mono hs⟩

theorem Traced.answering {s : State} {roots : Node Content → Prop} (h : s.Traced roots)
    (events : Array Event) : State.Traced roots { s with events } :=
  ⟨h.toFaithful.answering events, h.toRooted.answering events⟩

def Leads (s t : State) : Prop :=
  ∃ qs : List Request, t.deeds.toList = s.deeds.toList ++ qs.map .ask

theorem Leads.refl (s : State) : s.Leads s := ⟨[], by simp⟩

theorem Leads.trans {s t u : State} (h : s.Leads t) (h' : t.Leads u) : s.Leads u := by
  obtain ⟨qs, h⟩ := h
  obtain ⟨qs', h'⟩ := h'
  exact ⟨qs ++ qs', by rw [h', h, List.map_append, List.append_assoc]⟩

end State

namespace Action

variable {α β : Type}

theorem run_bind (act : Action α) (f : α → Action β) (s : State) :
    (act >>= f).run s =
      match act.run s with
      | (.ok a, t) => (f a).run t
      | (.error halt, t) => (.error halt, t) := by
  change (ExceptT.bindCont f (act s).1) (act s).2 = _
  cases h : act s with
  | mk outcome t => cases outcome <;> simp [ExceptT.run, h] <;> rfl

theorem run_withNode (x : Name) (act : Node Content → Action Unit) (s : State) :
    (withNode x act).run s =
      match s.scope.nodes.get? x with
      | some n => (act n).run s
      | none => (emit .unbound).run s := by
  have hr : (node? x).run s = (.ok (s.scope.nodes.get? x), s) := rfl
  rw [withNode, run_bind, hr]
  cases s.scope.nodes.get? x <;> rfl

theorem run_withConstraint (x : Name) (act : Constraint → Action Unit) (s : State) :
    (withConstraint x act).run s =
      match s.scope.constraints.get? x with
      | some c => (act c).run s
      | none => (emit .unbound).run s := by
  have hr : (constraint? x).run s = (.ok (s.scope.constraints.get? x), s) := rfl
  rw [withConstraint, run_bind, hr]
  cases s.scope.constraints.get? x <;> rfl

variable {roots : Node Content → Prop}

/-- From states with `P` that are faithful, and whose nodes come from the roots, the action leads to
such states by requests, and to ones with `Q` when it is not halted. -/
def Honest (roots : Node Content → Prop) (P : State → Prop) (act : Action α)
    (Q : α → State → Prop) : Prop :=
  ∀ s, s.Traced roots → P s →
    s.Leads (act.run s).2 ∧ (act.run s).2.Traced roots ∧
      ∀ a, (act.run s).1 = .ok a → Q a (act.run s).2

abbrev Plain (roots : Node Content → Prop) (act : Action α) : Prop :=
  Honest roots (fun _ => True) act fun _ _ => True

section

variable {P P' : State → Prop} {Q : α → State → Prop} {R : β → State → Prop}

theorem Honest.pre {act : Action α} (h : Honest roots P act Q) (hp : ∀ s, P' s → P s) :
    Honest roots P' act Q := fun s ht hs => h s ht (hp s hs)

theorem honest_pure {a : α} (h : ∀ s, P s → Q a s) : Honest roots P (pure a) Q := by
  intro s ht hs
  refine ⟨.refl s, ht, fun b hb => ?_⟩
  cases hb
  exact h s hs

theorem honest_throw (halt : Halt) : Honest roots P (throw halt) Q :=
  fun s ht _ => ⟨.refl s, ht, nofun⟩

theorem Honest.bind {act : Action α} {f : α → Action β} (h : Honest roots P act Q)
    (hf : ∀ a, Honest roots (Q a) (f a) R) : Honest roots P (act >>= f) R := by
  intro s hs hp
  obtain ⟨hl, ht, hq⟩ := h s hs hp
  rw [run_bind]
  split
  · rename_i a t hr
    rw [hr] at hl ht hq
    obtain ⟨hl', hu, hr'⟩ := hf a t ht (hq a rfl)
    exact ⟨hl.trans hl', hu, hr'⟩
  · -- What was done before the halt stays, and so does what is known of it.
    rename_i halt t hr
    rw [hr] at hl ht
    exact ⟨hl, ht, nofun⟩

theorem plain_frame {act : Action α}
    (h : ∀ s, (act.run s).2.deeds = s.deeds ∧ (act.run s).2.runs = s.runs ∧
      (act.run s).2.scope.constraints = s.scope.constraints)
    (hr : ∀ s, s.Rooted roots → (act.run s).2.Rooted roots) : Plain roots act := by
  intro s ht _
  obtain ⟨hd, hs, hc⟩ := h s
  refine ⟨⟨[], by simp [hd]⟩, ⟨⟨?_, ?_⟩, hr s ht.toRooted⟩, fun _ _ => trivial⟩
  · rw [State.world, hd, hs]
    exact ht.runs
  · rw [State.world, hd, hc]
    exact ht.exist

theorem plain_emit (e : Event) : Plain roots (emit e) :=
  plain_frame (fun _ => ⟨rfl, rfl, rfl⟩) fun _ h => h.answering _

theorem plain_bindNode (x : Name) {n : Node Content} (hn : n.Rooted roots) :
    Plain roots (bindNode x n) :=
  plain_frame (fun _ => ⟨rfl, rfl, rfl⟩) fun _ h =>
    ⟨Bindings.forall_values_set h.nodes x hn, h.futures, h.requests⟩

theorem plain_bindFuture (x : Name) {f : Future} (hf : f.node.Rooted roots) :
    Plain roots (bindFuture x f) :=
  plain_frame (fun _ => ⟨rfl, rfl, rfl⟩) fun _ h =>
    ⟨h.nodes, Bindings.forall_values_set h.futures x hf, h.requests⟩

theorem honest_takeFuture (x : Name) :
    Honest roots (fun _ => True) (takeFuture x) fun f _ => ∀ g ∈ f, g.node.Rooted roots := by
  intro s ht _
  have hp : Plain roots (takeFuture x) := plain_frame (fun _ => ⟨rfl, rfl, rfl⟩) fun _ h =>
    ⟨h.nodes, fun g hg => h.futures g (Bindings.mem_values_erase hg), h.requests⟩
  obtain ⟨hl, hs, -⟩ := hp s ht trivial
  refine ⟨hl, hs, fun f hf g hg => ?_⟩
  cases hf
  exact ht.futures g (Bindings.mem_values_of_get? hg)

theorem honest_get :
    Honest roots (fun _ => True) get fun a _ => State.Rooted roots a := by
  intro s ht _
  refine ⟨.refl s, ht, fun a ha => ?_⟩
  cases ha
  exact ht.toRooted

theorem honest_withNode {x : Name} {act : Node Content → Action Unit}
    (h : ∀ n, n.Rooted roots → Honest roots P (act n) fun _ _ => True) :
    Honest roots P (withNode x act) fun _ _ => True := by
  intro s ht hs
  rw [run_withNode]
  cases hx : s.scope.nodes.get? x with
  | some n => exact h n (ht.nodes n (Bindings.mem_values_of_get? hx)) s ht hs
  | none => exact plain_emit .unbound s ht trivial

theorem plain_withConstraint {x : Name} {act : Constraint → Action Unit}
    (h : ∀ c, Honest roots (fun s => s.scope.constraints.get? x = some c) (act c) fun _ _ => True) :
    Plain roots (withConstraint x act) := by
  intro s ht _
  rw [run_withConstraint]
  cases hc : s.scope.constraints.get? x with
  | some c => exact h c s ht hc
  | none => exact plain_emit .unbound s ht trivial

theorem honest_dropConstraint (x : Name) (c : Constraint) :
    Honest roots (fun s => s.scope.constraints.get? x = some c) (dropConstraint x)
      fun _ s => s.Faithful [c] := by
  intro s ht hc
  have hf : ((dropConstraint x).run s).2.Faithful [c] :=
    ⟨ht.runs, (Bindings.subperm_of_get? hc).trans ht.exist⟩
  have hr : ((dropConstraint x).run s).2.Rooted roots := ⟨ht.nodes, ht.futures, ht.requests⟩
  exact ⟨⟨[], by simp [dropConstraint]; rfl⟩, ⟨hf.weaken, hr⟩, fun _ _ => hf⟩

theorem honest_bindConstraint (x : Option Name) (c : Constraint) :
    Honest roots (fun s => s.Faithful [c]) (bindConstraint x c) fun _ _ => True := by
  intro s ht hc
  cases x with
  | none => exact ⟨.refl s, ht, fun _ _ => trivial⟩
  | some x =>
    have he := (Bindings.erase_sublist s.scope.constraints x).cons_cons c
    have hf : ((bindConstraint (some x) c).run s).2.Faithful [] :=
      ⟨ht.runs, he.subperm.trans hc.exist⟩
    have hr : ((bindConstraint (some x) c).run s).2.Rooted roots :=
      ⟨ht.nodes, ht.futures, ht.requests⟩
    exact ⟨⟨[], by simp [bindConstraint]; rfl⟩, ⟨hf, hr⟩, fun _ _ => trivial⟩

theorem Plain.forM {l : List β} {act : β → Action Unit} (h : ∀ b ∈ l, Plain roots (act b)) :
    Plain roots (l.forM act) := by
  induction l with
  | nil => exact honest_pure fun _ _ => trivial
  | cons b l ih =>
    have hl : Plain roots (l.forM act) := ih fun c hc => h c (List.mem_cons_of_mem b hc)
    exact Honest.bind (h b List.mem_cons_self) fun _ => hl

theorem run_attempt (q : Request) (s : State) :
    (attempt q).run s =
      (.ok (q.perform.run s.runs).1,
        { s with runs := (q.perform.run s.runs).2, deeds := s.deeds.push (.ask q) }) := rfl

def handed : (q : Request) → Except Misuse q.Answer → List Constraint
  | .declare .., .ok c => [c]
  | .apply .., .ok c => [c]
  | .otherwise .., .ok c => [c]
  | _, _ => []

theorem rooted_attempt {q : Request} (hq : ∀ n ∈ q.node?, n.Rooted roots) {s : State}
    (h : s.Rooted roots) : ((attempt q).run s).2.Rooted roots where
  nodes := h.nodes
  futures := h.futures
  requests := by
    intro r hr
    rw [run_attempt, Array.toList_push] at hr
    rcases List.mem_append.mp hr with hr | hr
    · exact h.requests r hr
    · cases List.mem_singleton.mp hr
      exact hq

theorem honest_attempt {q : Request} (hq : ∀ n ∈ q.node?, n.Rooted roots)
    (he : ∀ s, s.Faithful [] → P s → ∀ c ∈ q.addressee?, c ∈ s.world.constraints)
    (hl : ∀ s, s.Faithful [] → P s → ∀ a,
      (handed q a ++ s.scope.constraints.values).Subperm (q.leave a s.world.constraints)) :
    Honest roots P (attempt q) fun a s => s.Faithful (handed q a) := by
  intro s hs hp
  -- The world only follows requests about constraints that exist, which `he` grants.
  have hw : ((attempt q).run s).2.world = ⟨((attempt q).run s).2.runs,
      q.leave (q.perform.run s.runs).1 s.world.constraints⟩ := by
    have ha := World.ask_of_mem (he s hs.toFaithful hp)
    rw [hs.runs] at ha
    rw [run_attempt, State.world, Array.toList_push, World.after_concat]
    exact ha
  have ht : ((attempt q).run s).2.Faithful (handed q (q.perform.run s.runs).1) :=
    ⟨by rw [hw], by rw [hw]; exact hl s hs.toFaithful hp _⟩
  refine ⟨⟨[q], by simp [run_attempt]⟩, ⟨ht.weaken, rooted_attempt hq hs.toRooted⟩,
    fun a ha => ?_⟩
  rw [run_attempt] at ha
  cases ha
  exact ht

theorem Honest.insist {q : Request}
    (h : Honest roots P (attempt q) fun a s => s.Faithful (handed q a)) :
    Honest roots P (insist q) fun a s => s.Faithful (handed q (.ok a)) := by
  refine h.bind fun a => ?_
  cases a with
  | ok a => exact honest_pure fun _ hs => hs
  | error m => exact honest_throw _

theorem Honest.settle {q : Request} {answer : Except Misuse q.Answer → State → Prop}
    (h : Honest roots P (attempt q) answer) (reaction : Reaction) :
    Honest roots P (settle reaction q) fun _ _ => True := by
  refine h.bind fun a => ?_
  cases a with
  | ok a => exact (plain_emit _).pre fun _ _ => trivial
  | error m =>
    cases reaction with
    | answer => exact (plain_emit _).pre fun _ _ => trivial
    | unwind => exact honest_throw _

theorem honest_declare {n : Node Content} (hn : n.Rooted roots) (satisfied : Bool)
    (origin : Origin) :
    Honest roots (fun _ => True) (insist (.declare n satisfied origin))
      fun c s => s.Faithful [c] := by
  refine (honest_attempt (Request.rooted_of_node? rfl hn) (by simp [Request.addressee?])
    fun s hf _ a => ?_).insist
  cases a with
  | ok c => exact (List.subperm_cons c).mpr hf.exist
  | error m => exact hf.exist

theorem honest_apply {n : Node Content} (hn : n.Rooted roots) (r : Rule) :
    Honest roots (fun _ => True) (insist (.apply n r)) fun c s => s.Faithful [c] := by
  refine (honest_attempt (Request.rooted_of_node? rfl hn) (by simp [Request.addressee?])
    fun s hf _ a => ?_).insist
  cases a with
  | ok c => exact (List.subperm_cons c).mpr hf.exist
  | error m => exact hf.exist

theorem honest_otherwise (c : Constraint) (message : String) :
    Honest roots (fun s => s.Faithful [c]) (attempt (.otherwise c message))
      fun a s => s.Faithful (handed (.otherwise c message) a) := by
  refine honest_attempt (by simp [Request.node?]) (fun s _ hc d hd => ?_) fun s _ hc a => ?_
  · cases hd
    exact hc.exist.subset List.mem_cons_self
  · have hx : s.scope.constraints.values.Subperm (s.world.constraints.erase c) := by
      simpa using hc.exist.erase c
    cases a with
    | ok d => exact (List.subperm_cons d).mpr hx
    | error m => exact hx

theorem honest_register (x : Name) {n : Node Content} (hn : n.Rooted roots) (c : Constraint)
    (reaction : Reaction) :
    Honest roots (fun s => s.scope.constraints.get? x = some c) (settle reaction (.register n c))
      fun _ _ => True := by
  refine (honest_attempt (Request.rooted_of_node? rfl hn) (fun s hf hc d hd => ?_)
    fun s hf _ a => ?_).settle reaction
  · cases hd
    exact hf.exist.subset (Bindings.mem_values_of_get? hc)
  · cases a <;> exact hf.exist

theorem plain_report {n : Node Content} (hn : n.Rooted roots) (v : Violation)
    (reaction : Reaction) : Plain roots (settle reaction (.report n v)) := by
  refine (honest_attempt (Request.rooted_of_node? rfl hn) (by simp [Request.addressee?])
    fun s hf _ a => ?_).settle reaction
  cases a <;> exact hf.exist

end

end Action

end Vetting
