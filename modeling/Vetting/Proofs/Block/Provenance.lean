import Vetting.Block.Effect
import Vetting.Proofs.Block.Bindings

/-! Where nodes come from. Each is the root of a run or was reached from one by steps that do not
leave its run, whatever the blocks do in between and whichever names it has passed through. -/

namespace Vetting

inductive Node.Reached (root : Node Content) : Node Content → Prop where
  | root : Reached root root
  | step {n m : Node Content} (d : Derivation) : Reached root n → d.follow? n = some m →
    Reached root m
  | element {n m : Node Content} (way : Traversal) : Reached root n → m ∈ way.nodes n →
    Reached root m

def Node.Rooted (roots : Node Content → Prop) (n : Node Content) : Prop :=
  ∃ root, roots root ∧ root.Reached n

def Request.node? : Request → Option (Node Content)
  | declare n _ _ => some n
  | apply n _ => some n
  | otherwise .. => none
  | register n _ => some n
  | report n _ => some n

variable {roots roots' : Node Content → Prop}

theorem Request.rooted_of_node? {q : Request} {n : Node Content} (hq : q.node? = some n)
    (hn : n.Rooted roots) : ∀ m ∈ q.node?, m.Rooted roots := by
  rw [hq]
  rintro m ⟨⟩
  exact hn

theorem Node.Rooted.step {n m : Node Content} {d : Derivation} (h : n.Rooted roots)
    (hd : d.follow? n = some m) : m.Rooted roots := by
  obtain ⟨root, hr, hn⟩ := h
  exact ⟨root, hr, hn.step d hd⟩

theorem Node.Rooted.element {n m : Node Content} {way : Traversal} (h : n.Rooted roots)
    (hm : m ∈ way.nodes n) : m.Rooted roots := by
  obtain ⟨root, hr, hn⟩ := h
  exact ⟨root, hr, hn.element way hm⟩

theorem Node.Rooted.mono {n : Node Content} (h : n.Rooted roots)
    (hs : ∀ root, roots root → roots' root) : n.Rooted roots' := by
  obtain ⟨root, hr, hn⟩ := h
  exact ⟨root, hs root hr, hn⟩

/-- All nodes that names stand for, that are to be awaited, or that were asked something of, come
from the roots. -/
structure State.Rooted (roots : Node Content → Prop) (s : State) : Prop where
  nodes : ∀ n ∈ s.scope.nodes.values, n.Rooted roots
  futures : ∀ f ∈ s.scope.futures.values, f.node.Rooted roots
  requests : ∀ q, .ask q ∈ s.deeds.toList → ∀ n ∈ q.node?, n.Rooted roots

theorem State.Rooted.mono {s : State} (h : s.Rooted roots)
    (hs : ∀ root, roots root → roots' root) : s.Rooted roots' where
  nodes := fun n hn => (h.nodes n hn).mono hs
  futures := fun f hf => (h.futures f hf).mono hs
  requests := fun q hq n hn => (h.requests q hq n hn).mono hs

theorem State.Rooted.answering {s : State} (h : s.Rooted roots) (events : Array Event) :
    State.Rooted roots { s with events } := ⟨h.nodes, h.futures, h.requests⟩

theorem State.rooted_any (s : State) : s.Rooted fun _ => True where
  nodes := fun n _ => ⟨n, trivial, .root⟩
  futures := fun f _ => ⟨f.node, trivial, .root⟩
  requests := fun _ _ n _ => ⟨n, trivial, .root⟩

theorem State.Rooted.push {s : State} (h : s.Rooted roots) {d : Deed} (hd : ∀ q, d ≠ .ask q)
    {t : State} (hs : t.scope = s.scope) (ht : t.deeds = s.deeds.push d) : t.Rooted roots where
  nodes := by
    rw [hs]
    exact h.nodes
  futures := by
    rw [hs]
    exact h.futures
  requests := by
    intro q hq
    rw [ht, Array.toList_push] at hq
    refine h.requests q ((List.mem_append.mp hq).resolve_right fun hq => ?_)
    exact hd q (List.mem_singleton.mp hq).symm

end Vetting
