import Vetting.Proofs.Block.Suspension
import Vetting.Proofs.Relocation
import Vetting.Proofs.Repetition
import Vetting.Proofs.Run.Frame

/-! Blocks for the members of a group. However the group was put together, its members get the block
one after the other, from left to right, until it is halted; and it makes no difference whether the
block may suspend. A block that has to do with nothing but its member and what it makes itself does
nothing more for a member that it has been executed for before. -/

namespace Vetting

open Vetting.Action

namespace Grouping

variable {α β : Type}

def map (f : α → β) : Grouping α → Grouping β
  | single a => single (f a)
  | .and g a => .and (g.map f) (f a)
  | join g h => join (g.map f) (h.map f)

theorem members_map (f : α → β) (g : Grouping α) : (g.map f).members = g.members.map f := by
  induction g with
  | single a => rfl
  | and g a ih => rw [map, members, ih, members, List.map_append, List.map_singleton]
  | join g h ihg ihh => rw [map, members, ihg, ihh, members, List.map_append]

def visit {m : Type → Type} [Monad m] (act : α → m Unit) : Grouping α → m Unit
  | single a => act a
  | .and g a => do
    g.visit act
    act a
  | join g h => do
    g.visit act
    h.visit act

theorem forM_members {m : Type → Type} [Monad m] [LawfulMonad m] (act : α → m Unit)
    (g : Grouping α) : g.members.forM act = g.visit act := by
  induction g with
  | single a => exact bind_pure (act a)
  | and g a ih =>
    have ha : [a].forM act = act a := bind_pure (act a)
    have happ : (g.members ++ [a]).forM act = (do g.members.forM act; [a].forM act) :=
      List.forM_append
    rw [members, visit, happ, ih, ha]
  | join g h ihg ihh =>
    have happ : (g.members ++ h.members).forM act = (do g.members.forM act; h.members.forM act) :=
      List.forM_append
    rw [members, visit, happ, ihg, ihh]

end Grouping

namespace Action

variable {α : Type} {act : α → Action Unit}

/-- The action is done for one item after another, each time where it has left off, until it is
halted; what has been done by then stays. -/
inductive InTurn (act : α → Action Unit) : List α → State → Except Halt Unit × State → Prop where
  | done (s : State) : InTurn act [] s (.ok (), s)
  | next {a : α} {as : List α} {s t : State} {r : Except Halt Unit × State} :
    (act a).run s = (.ok (), t) → InTurn act as t r → InTurn act (a :: as) s r
  | halted {a : α} {as : List α} {s t : State} {halt : Halt} :
    (act a).run s = (.error halt, t) → InTurn act (a :: as) s (.error halt, t)

theorem run_forM_eq_iff (as : List α) (s : State) (r : Except Halt Unit × State) :
    (as.forM act).run s = r ↔ InTurn act as s r := by
  induction as generalizing s with
  | nil =>
    constructor
    · rintro rfl
      exact .done s
    · rintro ⟨⟩
      rfl
  | cons a as ih =>
    show (act a >>= fun _ => as.forM act).run s = r ↔ _
    rw [run_bind]
    constructor
    · intro hr
      split at hr
      · rename_i ha
        exact .next ha ((ih _).mp hr)
      · rename_i ha
        exact hr ▸ .halted ha
    · rintro (_ | ⟨ha, hr⟩ | ha)
      · rw [ha]
        exact (ih _).mpr hr
      · rw [ha]

end Action

/-! Members that are listed again. -/

structure Runs.Tidy (rs : Runs) (run : RunId) : Prop where
  opened : (rs.ledger run).completed = false
  nodup : (rs.ledger run).entries.Nodup

def Transfer.still (run : RunId) : Transfer := .relocation .root run run False

namespace Transfer

variable {run : RunId}

theorem still_entry (run : RunId) : (still run).entry = id := by
  funext e
  exact congrArg (Entry.mk · e.message e.origin) e.path.root_append

theorem still_halt (run : RunId) (halt : Halt) : (still run).halt halt = halt := by
  cases halt with
  | misused m => exact congrArg Halt.misused m.placed_root
  | _ => rfl

theorem matches_still_iff {rs rs' : Runs} :
    (still run).Matches rs rs' ↔
      (rs.ledger run).completed = false ∧ rs'.ledger run = rs.ledger run := by
  have hc : ∀ es fs : Entries, (still run).corresponds ⟨es, []⟩ fs ↔ fs = es := fun es fs => by
    show fs = es.map (still run).entry ↔ fs = es
    rw [still_entry, List.map_id]
  constructor
  · rintro ⟨ho, ho', h⟩
    have he : (rs'.ledger run).entries = (rs.ledger run).entries := (hc _ _).mp h
    have hb : (rs'.ledger run).completed = (rs.ledger run).completed := Eq.trans ho' ho.symm
    exact ⟨ho, Ledger.ext he hb⟩
  · rintro ⟨ho, he⟩
    exact ⟨ho, (congrArg Ledger.completed he).trans ho, (hc _ _).mpr (congrArg Ledger.entries he)⟩

theorem Ends.eq_of_still {r r' : Except Halt Unit × State}
    (h : (still run).Ends (fun _ _ s t => (still run).Matches s.runs t.runs) r r') :
    r'.1 = r.1 ∧ r'.2.runs.ledger run = r.2.runs.ledger run := by
  cases h with
  | returned hm => exact ⟨rfl, (matches_still_iff.mp hm).2⟩
  | halted halt hm => exact ⟨by rw [still_halt], (matches_still_iff.mp hm).2⟩
  | givenUp _ _ hl => exact absurd hl id

end Transfer

namespace Action

variable {run : RunId}

/-- The action keeps to the run: it does the same things again wherever the places of the run are
left as they are. -/
def KeepsTo (run : RunId) (act : Action Unit) : Prop :=
  ∀ L : Transfer, L.source = run → L.target = run → (∀ q, L.place q = q) → Steps L act act

theorem keepsTo_execute (library : Library) (context : Context) (member : Name) (body : Block)
    {n : Node Content} (hn : n.run = run) :
    KeepsTo run (do bindNode member n; Block.execute library.nested context body) := by
  intro L hs ht hp
  have hself : L.node n = n := by
    cases n
    cases hn
    exact congrArg₂ (Node.mk _ · ·) (hp _) ht
  have hb : Steps L (bindNode member n) (bindNode member (L.node n)) :=
    steps_bindNode member (hn.trans hs.symm)
  rw [hself] at hb
  exact hb.bind fun _ _ =>
    Block.steps_of_unmoved hp library (Nat.le_refl Library.depthLimit) (.inr rfl) context body

section

variable {act : Action Unit} {s t u : State}

theorem KeepsTo.grows (h : act.KeepsTo run) (hc : act.SelfContained s) (hs : s.runs.Tidy run)
    (hr : act.run s = (.ok (), t)) :
    t.runs.Tidy run ∧ (s.runs.ledger run).entries <+: (t.runs.ledger run).entries := by
  have hl : ∀ base, Steps (.echo base run) act act := fun base => h _ rfl rfl fun _ => rfl
  have hok : (act.run s).1 = .ok () := congrArg Prod.fst hr
  obtain ⟨-, ho, hn, hm⟩ := hc.mirrors hc hl hs.opened hs.opened hs.nodup hs.nodup
    (fun e he => .inl he) hok
  rw [hr] at ho hn hm
  exact ⟨⟨ho, hn⟩, hm.starts⟩

theorem KeepsTo.absorbed (h : act.KeepsTo run) (hc : act.SelfContained s)
    (hc' : act.SelfContained u) (hs : s.runs.Tidy run) (hu : u.runs.Tidy run)
    (hr : act.run s = (.ok (), t))
    (ht : (t.runs.ledger run).entries ⊆ (u.runs.ledger run).entries) :
    ∃ u', act.run u = (.ok (), u') ∧ u'.runs.ledger run = u.runs.ledger run := by
  have hl : ∀ base, Steps (.echo base run) act act := fun base => h _ rfl rfl fun _ => rfl
  have hok : (act.run s).1 = .ok () := congrArg Prod.fst hr
  have hst : (s.runs.ledger run).entries ⊆ (t.runs.ledger run).entries :=
    (h.grows hc hs hr).2.subset
  obtain ⟨hok', ho, hn, hm⟩ := hc.mirrors hc' hl hs.opened hu.opened hs.nodup hu.nodup
    (fun e he => .inl (ht (hst he))) hok
  rw [hr] at hm
  have he : ((act.run u).2.runs.ledger run).entries = (u.runs.ledger run).entries :=
    hm.eq_base hn fun e he => .inl (ht he)
  exact ⟨(act.run u).2, Prod.ext hok' rfl, Ledger.ext he (ho.trans hu.opened.symm)⟩

end

section

variable {α : Type} {act : α → Action Unit} {a : α} {as bs : List α} {s t : State}

/-- For each of the items, where it is come to, the action uses nothing that it has not made itself.
-/
def SelfContainedInTurn (act : α → Action Unit) : List α → State → Prop
  | [], _ => True
  | a :: as, s => (act a).SelfContained s ∧
    (((act a).run s).1 = .ok () → SelfContainedInTurn act as ((act a).run s).2)

instance (act : Action Unit) (s : State) : Decidable (act.SelfContained s) :=
  inferInstanceAs (Decidable (_ ∧ _))

instance decidableSelfContainedInTurn (act : α → Action Unit) :
    ∀ as s, Decidable (SelfContainedInTurn act as s)
  | [], _ => .isTrue trivial
  | a :: as, s =>
    have := decidableSelfContainedInTurn act as ((act a).run s).2
    inferInstanceAs (Decidable (_ ∧ (_ → _)))

theorem SelfContainedInTurn.rest (h : SelfContainedInTurn act (a :: as) s)
    (ha : (act a).run s = (.ok (), t)) : SelfContainedInTurn act as t := by
  have hr := h.2
  rw [ha] at hr
  exact hr rfl

theorem SelfContainedInTurn.append (h : SelfContainedInTurn act (as ++ bs) s) :
    SelfContainedInTurn act as s ∧
      ∀ t, InTurn act as s (.ok (), t) → SelfContainedInTurn act bs t := by
  induction as generalizing s with
  | nil =>
    refine ⟨trivial, ?_⟩
    rintro t ⟨⟩
    exact h
  | cons a as ih =>
    refine ⟨⟨h.1, fun hok => (ih (h.2 hok)).1⟩, ?_⟩
    rintro u (_ | ⟨ha, hu⟩)
    exact (ih (h.rest ha)).2 u hu

theorem InTurn.grows (h : InTurn act as s (.ok (), t)) (hk : ∀ a ∈ as, (act a).KeepsTo run)
    (hc : SelfContainedInTurn act as s) (hs : s.runs.Tidy run) :
    t.runs.Tidy run ∧ (s.runs.ledger run).entries <+: (t.runs.ledger run).entries := by
  induction as generalizing s with
  | nil =>
    cases h
    exact ⟨hs, List.prefix_refl _⟩
  | cons a as ih =>
    obtain _ | ⟨ha, h⟩ := h
    obtain ⟨hu, hsu⟩ := (hk a List.mem_cons_self).grows hc.1 hs ha
    obtain ⟨ht, hut⟩ := ih h (fun b hb => hk b (List.mem_cons_of_mem a hb)) (hc.rest ha) hu
    exact ⟨ht, hsu.trans hut⟩

theorem InTurn.absorbs (h : InTurn act as s (.ok (), t)) (hm : a ∈ as)
    (hk : ∀ a ∈ as, (act a).KeepsTo run) (hc : SelfContainedInTurn act as s)
    (hca : (act a).SelfContained t) (hs : s.runs.Tidy run) :
    ∃ u, (act a).run t = (.ok (), u) ∧ u.runs.ledger run = t.runs.ledger run := by
  induction as generalizing s with
  | nil => exact absurd hm List.not_mem_nil
  | cons b as ih =>
    obtain _ | ⟨hb, h⟩ := h
    have hkb := hk b List.mem_cons_self
    have hkas : ∀ c ∈ as, (act c).KeepsTo run := fun c hmc => hk c (List.mem_cons_of_mem b hmc)
    obtain ⟨hu, -⟩ := hkb.grows hc.1 hs hb
    rcases List.mem_cons.mp hm with rfl | hm
    · -- What has been put there for the item is still there when the others have been done.
      obtain ⟨ht, hut⟩ := h.grows hkas (hc.rest hb) hu
      exact hkb.absorbed hc.1 hca hs ht hb hut.subset
    · exact ih h hm hkas (hc.rest hb) hu

theorem ends_forM (hk : ∀ a ∈ as, (act a).KeepsTo run) (hc : SelfContainedInTurn act as s)
    (hc' : SelfContainedInTurn act as t)
    (hm : (Transfer.still run).Matches s.runs t.runs) :
    (Transfer.still run).Ends (fun _ _ s t => (Transfer.still run).Matches s.runs t.runs)
      ((as.forM act).run s) ((as.forM act).run t) := by
  induction as generalizing s t with
  | nil => exact .returned hm
  | cons a as ih =>
    have hl : Steps (.still run) (act a) (act a) :=
      hk a List.mem_cons_self _ rfl rfl Path.root_append
    have he := hc.1.ends hc'.1 hl hm
    have hcs := hc.2
    have hcs' := hc'.2
    show Transfer.Ends _ _ ((act a >>= fun _ => as.forM act).run s)
      ((act a >>= fun _ => as.forM act).run t)
    rw [run_bind, run_bind]
    generalize (act a).run s = r at he hcs
    generalize (act a).run t = r' at he hcs'
    cases he with
    | returned hm' =>
      exact ih (fun b hb => hk b (List.mem_cons_of_mem a hb)) (hcs rfl) (hcs' rfl) hm'
    | halted halt hm' => exact .halted halt hm'
    | givenUp _ _ hl => exact absurd hl id

theorem ends_forM_again {before after : List α} (ha : a ∈ before)
    (hk : ∀ b ∈ before ++ a :: after, (act b).KeepsTo run)
    (hc : SelfContainedInTurn act (before ++ a :: after) s)
    (hc' : SelfContainedInTurn act (before ++ after) t) (hs : s.runs.Tidy run)
    (hm : (Transfer.still run).Matches s.runs t.runs) :
    (Transfer.still run).Ends (fun _ _ s t => (Transfer.still run).Matches s.runs t.runs)
      (((before ++ a :: after).forM act).run s) (((before ++ after).forM act).run t) := by
  obtain ⟨hcb, hca⟩ := hc.append
  obtain ⟨hcb', hca'⟩ := hc'.append
  have hkb : ∀ b ∈ before, (act b).KeepsTo run := fun b hb => hk b (List.mem_append_left _ hb)
  have hka : ∀ b ∈ after, (act b).KeepsTo run := fun b hb =>
    hk b (List.mem_append_right _ (List.mem_cons_of_mem a hb))
  have he := ends_forM hkb hcb hcb' hm
  have happ : (before ++ a :: after).forM act =
      (do before.forM act; (a :: after).forM act) := List.forM_append
  have happ' : (before ++ after).forM act = (do before.forM act; after.forM act) :=
    List.forM_append
  rw [happ, happ', run_bind, run_bind]
  generalize hr : (before.forM act).run s = r at he
  generalize hr' : (before.forM act).run t = r' at he
  cases he with
  | @returned _ _ u v hm' =>
    have hu : InTurn act before s (.ok (), u) := (run_forM_eq_iff ..).mp hr
    have hv : InTurn act before t (.ok (), v) := (run_forM_eq_iff ..).mp hr'
    have hcu := hca u hu
    obtain ⟨w, hw, hwu⟩ := hu.absorbs ha hkb hcb hcu.1 hs
    -- Nothing has come of the item, so what is left is done in the same run.
    have hmw : (Transfer.still run).Matches w.runs v.runs := by
      obtain ⟨ho, hvu⟩ := Transfer.matches_still_iff.mp hm'
      exact Transfer.matches_still_iff.mpr ⟨by rw [hwu, ho], by rw [hvu, hwu]⟩
    show Transfer.Ends _ _ ((act a >>= fun _ => after.forM act).run u) ((after.forM act).run v)
    rw [run_bind, hw]
    exact ends_forM hka (hcu.rest hw) (hca' v hv) hmw
  | halted halt hm' => exact .halted halt hm'
  | givenUp _ _ hl => exact absurd hl id

end

theorem Plain.ledger_of_completed {act : Action Unit} (h : Plain (fun _ => True) act) {s : State}
    (hs : s.Faithful []) (hc : (s.runs.ledger run).completed = true) :
    (act.run s).2.runs.ledger run = s.runs.ledger run := by
  obtain ⟨⟨qs, hq⟩, ht, -⟩ := h s hs.traced trivial
  have hw : (s.world.runs.ledger run).completed = true := hs.runs ▸ hc
  rw [← ht.runs, ← hs.runs, State.world, hq, World.after_append]
  exact World.ledger_asks hw qs

end Action

theorem State.Faithful.tidy {s : State} (h : s.Faithful []) {run : RunId}
    (ho : (s.runs.ledger run).completed = false) : s.runs.Tidy run := by
  refine ⟨ho, ?_⟩
  rw [← h.runs] at ho ⊢
  exact ((World.sound_after s.deeds.toList).progress run ho).nodup

namespace Effect

variable {g : Grouping Name} {node : Name → Node Content} {s : State}

def entering (ns : List (Node Content)) (s : State) : State := ((emit (.grouped ns)).run s).2

theorem run_together (hg : ∀ x ∈ g.members, s.scope.nodes.get? x = some (node x)) (member : Name)
    (act : Action Unit) :
    (together g member act).run s =
      ((g.members.map node).forM fun n => do bindNode member n; act).run
        (entering (g.members.map node) s) := by
  have hm : g.members.mapM s.scope.nodes.get? = some (g.members.map node) := by
    generalize g.members = xs at hg
    induction xs with
    | nil => rfl
    | cons x xs ih =>
      rw [List.mapM_cons, hg x List.mem_cons_self, ih fun y hy => hg y (List.mem_cons_of_mem x hy)]
      rfl
  have hget : (get : Action State).run s = (.ok s, s) := rfl
  rw [together_eq, run_bind, hget]
  dsimp only
  rw [hm]
  exact run_bind ..

section

variable {library : Library} {context : Context} {body : Block} {member : Name} {run : RunId}

theorem ledger_together_of_completed (hs : s.Faithful [])
    (hb : (s.runs.ledger run).completed = true) (g : Grouping Name) :
    ((together g member (Block.execute library.nested context body)).run s).2.runs.ledger run =
      s.runs.ledger run := by
  have ha : Plain (fun _ => True) (Block.execute library.nested context body) :=
    Block.plain_execute library.plain_nested context body
  exact (plain_together g member ha).ledger_of_completed hs hb

variable {h : Grouping Name} {before after : List Name} {x : Name}

theorem together_again (hg : g.members = before ++ x :: after) (hh : h.members = before ++ after)
    (hx : node x ∈ before.map node)
    (hn : ∀ y ∈ g.members, s.scope.nodes.get? y = some (node y) ∧ (node y).run = run)
    (hs : s.Faithful []) (hb : (s.runs.ledger run).completed = false)
    (hc : SelfContainedInTurn
      (fun n => do bindNode member n; Block.execute library.nested context body)
      (g.members.map node) (entering (g.members.map node) s))
    (hc' : SelfContainedInTurn
      (fun n => do bindNode member n; Block.execute library.nested context body)
      (h.members.map node) (entering (h.members.map node) s)) :
    (Transfer.still run).Ends (fun _ _ s t => (Transfer.still run).Matches s.runs t.runs)
      ((together g member (Block.execute library.nested context body)).run s)
      ((together h member (Block.execute library.nested context body)).run s) := by
  have hgn : ∀ y ∈ g.members, s.scope.nodes.get? y = some (node y) := fun y hy => (hn y hy).1
  have hhn : ∀ y ∈ h.members, s.scope.nodes.get? y = some (node y) := by
    intro y hy
    refine hgn y ?_
    rw [hh, List.mem_append] at hy
    rw [hg, List.mem_append]
    exact hy.imp_right (List.mem_cons_of_mem x)
  have hk : ∀ n ∈ g.members.map node,
      KeepsTo run (do bindNode member n; Block.execute library.nested context body) := by
    intro n hm
    obtain ⟨y, hy, rfl⟩ := List.mem_map.mp hm
    exact keepsTo_execute library context member body (hn y hy).2
  have hm : (Transfer.still run).Matches (entering (g.members.map node) s).runs
      (entering (h.members.map node) s).runs :=
    Transfer.matches_still_iff.mpr ⟨hb, rfl⟩
  have ht : (entering (g.members.map node) s).runs.Tidy run := hs.tidy hb
  have hmg : g.members.map node = before.map node ++ node x :: after.map node := by
    rw [hg, List.map_append, List.map_cons]
  have hmh : h.members.map node = before.map node ++ after.map node := by rw [hh, List.map_append]
  rw [run_together hgn, run_together hhn]
  rw [hmg] at hc hk hm ht ⊢
  rw [hmh] at hc' hm ⊢
  exact ends_forM_again hx hk hc hc' ht hm

end

end Effect

/-- A group gives its block to its members in turn, from left to right along the grouping, and stops
where the block is halted; so only the order of the members counts. If the block may suspend, it
comes to the same once it has been woken up often enough. A block that uses nothing but its member
and what it makes itself has no effect on the collection for a member that is listed again. -/
theorem Grouping.together_in_turn :
    (∀ (g : Grouping Name) (member : Name) (act : Action Unit) (node : Name → Node Content)
      (s : State), (∀ x ∈ g.members, s.scope.nodes.get? x = some (node x)) →
      (Effect.together g member act).run s =
        ((g.map node).visit fun n => do bindNode member n; act).run
          (Effect.entering (g.map node).members s)) ∧
    (∀ (α : Type) (g : Grouping α) (act : α → Action Unit) (s : State)
      (r : Except Halt Unit × State), (g.visit act).run s = r ↔ InTurn act g.members s r) ∧
    (∀ (α : Type) (g h : Grouping α) (act : α → Action Unit), g.members = h.members →
      g.visit act = h.visit act) ∧
    (∀ (latency : State → Nat) (library : Library) (context : Context) (g : Grouping Name)
      (member : Name) (body : Block) (s : State), ∃ n, ∀ wakes, n ≤ wakes →
      (((Statement.together g member body).carryOut (.suspending latency)
        (library.enterIn (.suspending latency) Library.depthLimit) context).drive wakes).run s =
      (Effect.together g member (Block.execute library.nested context body)).run s) ∧
    ∀ (library : Library) (context : Context) (member : Name) (body : Block) (g h : Grouping Name)
      (before after : List Name) (x : Name) (node : Name → Node Content) (run : RunId) (s : State),
      let act := Block.execute library.nested context body
      let block := fun n => do bindNode member n; act
      let listed := (Effect.together g member act).run s
      let once := (Effect.together h member act).run s
      g.members = before ++ x :: after → h.members = before ++ after → node x ∈ before.map node →
      (∀ y ∈ g.members, s.scope.nodes.get? y = some (node y) ∧ (node y).run = run) →
      s.Faithful [] →
      SelfContainedInTurn block (g.members.map node) (Effect.entering (g.members.map node) s) →
      SelfContainedInTurn block (h.members.map node) (Effect.entering (h.members.map node) s) →
      once.2.runs.ledger run = listed.2.runs.ledger run ∧
        ((s.runs.ledger run).completed = false → once.1 = listed.1) := by
  refine ⟨fun g member act node s hg => ?_, fun α g act s r => ?_, fun α g h act he => ?_,
    fun latency library context g member body s => ?_, ?_⟩
  · rw [Effect.run_together hg, ← members_map, forM_members]
  · rw [← forM_members]
    exact run_forM_eq_iff g.members s r
  · rw [← forM_members, ← forM_members, he]
  · have hf := Mode.finish_statement latency library Library.depthLimit context
      (.together g member body)
    obtain ⟨n, hn⟩ := Resumable.exists_drive_eq (((Statement.together g member body).carryOut
      (.suspending latency) (library.enterIn (.suspending latency) Library.depthLimit) context)) s
    refine ⟨n, fun wakes hw => (hn wakes hw).trans ?_⟩
    rw [hf, Statement.execute_together]
    rfl
  · intro library context member body g h before after x node run s act block listed once hg hh hx
      hn hs hc hc'
    cases hb : (s.runs.ledger run).completed with
    | true =>
      have hl : ∀ k : Grouping Name,
          ((Effect.together k member act).run s).2.runs.ledger run = s.runs.ledger run :=
        Effect.ledger_together_of_completed hs hb
      exact ⟨(hl h).trans (hl g).symm, nofun⟩
    | false =>
      obtain ⟨hend, hledger⟩ := (Effect.together_again hg hh hx hn hs hb hc hc').eq_of_still
      exact ⟨hledger, fun _ => hend⟩

def bounding : Validator :=
  ⟨⟨"root", false, [.derive "root" "low" (.key "low"), .derive "root" "high" (.key "high")]⟩,
    .standard, []⟩

def bounded : State := (bounding.play .null .null (Session.state [])).2

def bound : Name → Node Content
  | "low" => ⟨.optional none, .ofList ["low"], 0⟩
  | _ => ⟨.optional none, .ofList ["high"], 0⟩

def boundBlock : Block :=
  [.apply "bound" (some "missing") .present,
    .constrain "bound" none .always 0 (.constant false) false,
    .otherwise "missing" "A bound is needed" .unwind]

theorem bounds_together :
    let act := Block.execute (Library.nested []) none boundBlock
    let bounds := Grouping.and (.single "low") "high"
    let listed := (Effect.together (.join bounds (.single "low")) "bound" act).run bounded
    let once := (Effect.together bounds "bound" act).run bounded
    once = ((bounds.map bound).visit fun n => do bindNode "bound" n; act).run
        (Effect.entering (bounds.map bound).members bounded) ∧
      once.2.runs.ledger 0 = listed.2.runs.ledger 0 ∧ once.1 = listed.1 ∧
      (once.2.runs.ledger 0).entries.length = 4 := by
  intro act bounds listed once
  obtain ⟨hvisit, -, -, -, hagain⟩ := Grouping.together_in_turn
  have hs : bounded.Faithful [] := by
    unfold bounded
    exact (bounding.play_spec .null .null (Session.faithful_state [])).1
  have hn : ∀ y ∈ ["low", "high", "low"],
      bounded.scope.nodes.get? y = some (bound y) ∧ (bound y).run = 0 := by
    intro y hy
    simp only [List.mem_cons, List.not_mem_nil, or_false] at hy
    rcases hy with rfl | rfl | rfl <;> exact ⟨rfl, rfl⟩
  have hb : ∀ y ∈ bounds.members, bounded.scope.nodes.get? y = some (bound y) := fun y hy =>
    (hn y (List.mem_append_left ["low"] hy)).1
  have ho : (bounded.runs.ledger 0).completed = false := rfl
  have hc : SelfContainedInTurn (fun n => do bindNode "bound" n; act)
      (["low", "high", "low"].map bound)
      (Effect.entering (["low", "high", "low"].map bound) bounded) := by
    decide +kernel
  have hc' : SelfContainedInTurn (fun n => do bindNode "bound" n; act)
      (["low", "high"].map bound) (Effect.entering (["low", "high"].map bound) bounded) := by
    decide +kernel
  obtain ⟨hledger, hend⟩ := hagain [] none "bound" boundBlock (.join bounds (.single "low")) bounds
    ["low", "high"] [] "low" bound 0 bounded rfl rfl List.mem_cons_self hn hs hc hc'
  have hlength : (once.2.runs.ledger 0).entries.length = 4 := by decide +kernel
  have hv := hvisit bounds "bound" act bound bounded hb
  unfold once listed act at *
  exact ⟨hv, hledger, hend ho, hlength⟩

end Vetting
