import Vetting.Proofs.Block.Transfer

/-! Blocks execute in lockstep: every effect does, on nodes and constraints that correspond,
statements are made of effects, and rules that apply one another by their names are executed to a
depth. -/

namespace Vetting

open Vetting.Action

variable {L : Transfer}

namespace Effect

theorem follows_answer (p : Predicate) (context : Context) (c : Content) :
    Follows L (L.Agree []) (p.answer context c) (p.answer context c) fun a b s t =>
      b = a ∧ L.Agree [] s t := by
  unfold Predicate.answer
  split
  · exact follows_pure fun _ _ h => ⟨rfl, h⟩
  · exact follows_throw (.panicked _)

theorem steps_record {n : Node Content} (hn : n.run = L.source) (target : Option Name)
    (satisfied : Bool) (origin : Origin) (called : Option Bool) :
    Steps L (record n target satisfied origin called)
      (record (L.node n) target satisfied origin called) := by
  refine (follows_declare hn satisfied origin).bind fun c d => ?_
  rintro s t ⟨rfl, h⟩
  exact (follows_bindConstraint target c).bind (fun _ _ => follows_emit _ _) s t h

theorem steps_answer_record {n : Node Content} (hn : n.run = L.source) (p : Predicate)
    (context : Context) (target : Option Name) (origin : Origin) (called : Option Bool) :
    Steps L
      (do record n target (← p.answer context n.value) origin called)
      (do record (L.node n) target (← p.answer context n.value) origin called) := by
  refine (follows_answer p context n.value).bind fun a b => ?_
  rintro s t ⟨rfl, h⟩
  exact steps_record hn target b origin called s t h

theorem steps_derive (source target : Name) (step : Derivation) :
    Steps L (derive source target step) (derive source target step) := by
  refine steps_withNode fun n hn => ?_
  have hf : step.follow? (L.node n) = (step.follow? n).map L.node := L.follow?_node n step
  rw [hf]
  cases hm : step.follow? n with
  | some m =>
    have hmr : m.run = L.source := (Derivation.run_follow? hm).trans hn
    exact (steps_bindNode target hmr).bind fun _ _ => follows_emit _ _
  | none => exact follows_throw (.panicked _)

theorem steps_ask (node : Name) (question : Question) :
    Steps L (ask node question) (ask node question) := by
  refine steps_withNode fun n _ => ?_
  cases question with
  | copies => exact follows_emit _ _
  | inspection => exact follows_emit _ _
  | sameAs other => exact steps_withNode fun m _ => follows_emit _ _
  | distinct others =>
    refine follows_get.bind fun s' t' => ?_
    rintro s t ⟨-, -, h⟩
    exact follows_emit _ _ s t h

theorem steps_apply (node : Name) (target : Option Name) (rule : Rule) :
    Steps L (apply node target rule) (apply node target rule) := by
  refine steps_withNode fun n hn => (follows_apply hn rule).bind fun c d => ?_
  rintro s t ⟨rfl, h⟩
  exact (follows_bindConstraint target c).bind (fun _ _ => follows_emit _ _) s t h

theorem steps_constrain (context : Context) (node : Name) (target : Option Name) (form : Form)
    (site : Nat) (predicate : Predicate) (propagates : Bool) :
    Steps L (constrain context node target form site predicate propagates)
      (constrain context node target form site predicate propagates) := by
  refine steps_withNode fun n hn => ?_
  rw [show (L.node n).value = n.value from rfl]
  cases form with
  | always => exact steps_answer_record hn predicate context target _ _
  | suspending => exact steps_answer_record hn predicate context target _ _
  | ifPresent =>
    dsimp only
    split
    · exact steps_record hn target _ _ _
    · exact steps_answer_record hn predicate context target _ _
  | fallible =>
    dsimp only
    split
    · exact steps_record hn target _ _ _
    · split
      · exact follows_throw (.failed _)
      · exact follows_emit _ _
    · exact follows_throw (.panicked _)

theorem steps_start (context : Context) (node target : Name) (site : Nat) (predicate : Predicate) :
    Steps L (start context node target site predicate)
      (start context node target site predicate) := by
  refine steps_withNode fun n hn =>
    (follows_answer predicate context n.value).bind fun a b => ?_
  rintro s t ⟨rfl, h⟩
  exact (steps_bindFuture (f := ⟨n, b, .site .suspending site⟩) target hn).bind
    (fun _ _ => follows_emit _ _) s t h

theorem steps_await (future : Name) (target : Option Name) :
    Steps L (await future target) (await future target) := by
  refine (follows_takeFuture future).bind fun f f' => ?_
  rintro s t ⟨rfl, hf, h⟩
  cases f with
  | some f => exact steps_record (hf f rfl) target _ _ _ s t h
  | none => exact follows_emit _ _ s t h

theorem steps_otherwise (constraint : Name) (message : String) (reaction : Reaction) :
    Steps L (otherwise constraint message reaction)
      (otherwise constraint message reaction) := by
  refine steps_withConstraint fun c => (follows_dropConstraint constraint c).bind fun _ _ => ?_
  refine (follows_otherwise c message).bind fun a b => ?_
  rintro s t (⟨d, rfl, rfl, h⟩ | ⟨m, rfl, rfl, h⟩)
  · exact (follows_bindConstraint (some constraint) d).bind (fun _ _ => follows_emit _ _) s t h
  · cases reaction with
    | answer => exact follows_emit _ _ s t h
    | unwind => exact follows_throw (.misused m) s t h

theorem steps_inspect (constraint : Name) :
    Steps L (inspect constraint) (inspect constraint) :=
  steps_withConstraint fun _ => (follows_emit _ _).pre fun _ _ h => h.1

theorem steps_resolve (constraint : Name) :
    Steps L (resolve constraint) (resolve constraint) :=
  steps_withConstraint fun c => (follows_dropConstraint constraint c).bind fun _ _ =>
    (follows_emit _ _).pre fun _ _ h => h.release

theorem steps_sameOrigin (first second : Name) :
    Steps L (sameOrigin first second) (sameOrigin first second) :=
  steps_withConstraint fun _ => (steps_withConstraint fun _ =>
    (follows_emit _ _).pre fun _ _ h => h.1).pre fun _ _ h => h.1

theorem steps_register (node constraint : Name) (reaction : Reaction) :
    Steps L (register node constraint reaction) (register node constraint reaction) :=
  steps_withConstraint fun c => follows_withNode (fun _ _ h => h.1) fun _ hn =>
    follows_settle (follows_register hn c) reaction

theorem steps_report (node : Name) {path : Option Path} (hp : ∀ q ∈ path, L.place q = q)
    (message : String) (reaction : Reaction) :
    Steps L (report node path message reaction) (report node path message reaction) :=
  steps_withNode fun _ hn => follows_settle (follows_report hn hp message) reaction

theorem steps_choose (condition : Condition) {act act' : Bool → Action Unit}
    (h : ∀ b, Steps L (act b) (act' b)) :
    Steps L (choose condition act) (choose condition act') := by
  have ht : ∀ taken, Steps L (do emit (.branched taken); act taken)
      (do emit (.branched taken); act' taken) := fun taken =>
    (follows_emit _ _).bind fun _ _ => h taken
  cases condition with
  | satisfied constraint =>
    rw [choose_satisfied, choose_satisfied]
    exact steps_withConstraint fun c => (ht c.satisfied).pre fun _ _ h => h.1
  | sameNodes first second =>
    rw [choose_sameNodes, choose_sameNodes]
    exact steps_withNode fun n _ => steps_withNode fun m _ => ht (n.value == m.value)

theorem steps_traverse (way : Traversal) (node element : Name) {act act' : Action Unit}
    (h : Steps L act act') :
    Steps L (traverse way node element act) (traverse way node element act') := by
  rw [traverse_eq, traverse_eq]
  refine steps_withNode fun n hn => ?_
  have hns : way.nodes (L.node n) = (way.nodes n).map L.node := L.nodes_node n way
  rw [hns]
  refine Follows.bind (follows_forM fun m hm => ?_) fun _ _ => follows_emit _ _
  -- Elements belong to the run of their collection.
  have hmr : m.run = L.source := by
    obtain ⟨c, -, rfl⟩ := List.mem_map.mp hm
    exact hn
  exact (steps_bindNode element hmr).bind fun _ _ => (follows_emit _ _).bind fun _ _ => h

theorem steps_together (group : Grouping Name) (member : Name) {act act' : Action Unit}
    (h : Steps L act act') :
    Steps L (together group member act) (together group member act') := by
  rw [together_eq, together_eq]
  refine follows_get.bind fun s' t' => ?_
  rintro s t ⟨rfl, rfl, hs⟩
  have ht : group.members.mapM t'.scope.nodes.get? =
      (group.members.mapM s'.scope.nodes.get?).map (List.map L.node) := by
    rw [hs.scope]
    exact Bindings.mapM_mapValues ..
  rw [ht]
  cases hm : group.members.mapM s'.scope.nodes.get? with
  | some ns =>
    have hns : ∀ n ∈ ns, n.run = L.source := fun n hn =>
      hs.within.nodes n (Bindings.mem_values_of_mapM hm n hn)
    have hb : Steps L (ns.forM fun n => do bindNode member n; act)
        ((ns.map L.node).forM fun n => do bindNode member n; act') :=
      follows_forM fun n hn => (steps_bindNode member (hns n hn)).bind fun _ _ => h
    exact Follows.bind (follows_emit _ _) (fun _ _ => hb) s' t' hs
  | none => exact follows_emit _ _ s' t' hs

end Effect

mutual

/-- The statement, and those within it, name no place of a violation but one of these, and apply no
rules by a name but one of these. -/
def Statement.Confined (places : Path → Prop) (rules : Name → Prop) : Statement → Prop
  | .report _ path _ _ => ∀ q ∈ path, places q
  | .branch _ yes no => Block.Confined places rules yes ∧ Block.Confined places rules no
  | .each _ _ _ body => Block.Confined places rules body
  | .together _ _ body => Block.Confined places rules body
  | .nest _ name _ => rules name
  | _ => True

def Block.Confined (places : Path → Prop) (rules : Name → Prop) : List Statement → Prop
  | [] => True
  | s :: ss => Statement.Confined places rules s ∧ Block.Confined places rules ss

end

mutual

theorem Statement.confined {places : Path → Prop} {rules : Name → Prop} (hp : ∀ q, places q)
    (hr : ∀ x, rules x) : ∀ s : Statement, Statement.Confined places rules s
  | .report .. => fun q _ => hp q
  | .branch _ yes no => ⟨Block.confined hp hr yes, Block.confined hp hr no⟩
  | .each _ _ _ body => Block.confined hp hr body
  | .together _ _ body => Block.confined hp hr body
  | .nest _ name _ => hr name
  | .derive .. | .ask .. | .apply .. | .constrain .. | .start .. | .await .. | .otherwise ..
  | .inspect .. | .resolve .. | .sameOrigin .. | .register .. | .fail .. | .suspend | .hang =>
    trivial

theorem Block.confined {places : Path → Prop} {rules : Name → Prop} (hp : ∀ q, places q)
    (hr : ∀ x, rules x) : ∀ ss : List Statement, Block.Confined places rules ss
  | [] => trivial
  | s :: ss => ⟨Statement.confined hp hr s, Block.confined hp hr ss⟩

end

def Nested.Steady (L : Transfer) (rules : Name → Prop) (nested nested' : Nested) : Prop :=
  ∀ name inner n, rules name → n.run = L.source →
    Steps L (nested name inner n) (nested' name inner (L.node n))

section

variable {places : Path → Prop} {rules : Name → Prop} {nested nested' : Nested}

mutual

theorem Statement.steps_execute (hp : ∀ q, places q → L.place q = q)
    (h : Nested.Steady L rules nested nested') (context : Context) :
    ∀ s : Statement, s.Confined places rules →
      Steps L (Statement.execute nested context s) (Statement.execute nested' context s)
  | .derive source target step, _ => Effect.steps_derive source target step
  | .ask node question, _ => Effect.steps_ask node question
  | .apply node target rule, _ => Effect.steps_apply node target rule
  | .constrain node target form site predicate propagates, _ =>
    Effect.steps_constrain context node target form site predicate propagates
  | .start node target site predicate, _ => Effect.steps_start context node target site predicate
  | .await future target, _ => Effect.steps_await future target
  | .otherwise constraint message reaction, _ =>
    Effect.steps_otherwise constraint message reaction
  | .inspect constraint, _ => Effect.steps_inspect constraint
  | .resolve constraint, _ => Effect.steps_resolve constraint
  | .sameOrigin first second, _ => Effect.steps_sameOrigin first second
  | .register node constraint reaction, _ => Effect.steps_register node constraint reaction
  | .report node _ message reaction, hc =>
    Effect.steps_report node (fun q hq => hp q (hc q hq)) message reaction
  | .branch condition yes no, hc => by
    rw [Statement.execute_branch, Statement.execute_branch]
    refine Effect.steps_choose condition fun taken => ?_
    split
    · exact Block.steps_execute hp h context yes hc.1
    · exact Block.steps_execute hp h context no hc.2
  | .each node element way body, hc => by
    rw [Statement.execute_each, Statement.execute_each]
    exact Effect.steps_traverse way node element (Block.steps_execute hp h context body hc)
  | .together group member body, hc => by
    rw [Statement.execute_together, Statement.execute_together]
    exact Effect.steps_together group member (Block.steps_execute hp h context body hc)
  | .nest node name inner, hc => by
    rw [Statement.execute_nest, Statement.execute_nest]
    exact steps_withNode fun n hn => h name inner n hc hn
  | .fail error, _ => follows_throw (.failed error)
  | .suspend, _ => follows_pure fun _ _ hs => hs
  | .hang, _ => follows_throw .abandoned

theorem Block.steps_execute (hp : ∀ q, places q → L.place q = q)
    (h : Nested.Steady L rules nested nested') (context : Context) :
    ∀ ss : List Statement, Block.Confined places rules ss →
      Steps L (Block.execute nested context ss) (Block.execute nested' context ss)
  | [], _ => by
    rw [Block.execute_nil, Block.execute_nil]
    exact follows_pure fun _ _ hs => hs
  | s :: ss, hc => by
    rw [Block.execute_cons, Block.execute_cons]
    exact Follows.bind (Statement.steps_execute hp h context s hc.1) fun _ _ =>
      Block.steps_execute hp h context ss hc.2

end

theorem RuleSet.steps_execute (hp : ∀ q, places q → L.place q = q)
    (h : Nested.Steady L rules nested nested') {r : RuleSet}
    (hc : Block.Confined places rules r.block) (context : Json) {n : Node Content}
    (hn : n.run = L.source) :
    Steps L (r.execute nested context n) (r.execute nested' context (L.node n)) :=
  (steps_bindNode r.root hn).bind fun _ _ => Block.steps_execute hp h _ r.block hc

end

namespace Library

def Confined (library : Library) (places : Path → Prop) (rules : Name → Prop) : Prop :=
  ∀ name r, rules name → library.lookup name = some r → Block.Confined places rules r.block

theorem confined (library : Library) {places : Path → Prop} {rules : Name → Prop}
    (hp : ∀ q, places q) (hr : ∀ x, rules x) : library.Confined places rules :=
  fun _ r _ _ => Block.confined hp hr r.block

theorem steady_enter {library : Library} {places : Path → Prop} {rules : Name → Prop}
    (hp : ∀ q, places q → L.place q = q) (h : library.Confined places rules)
    {depth depth' : Nat} (hd : depth' ≤ depth) (hl : L.lenient ∨ depth = depth') :
    Nested.Steady L rules (library.enter depth) (library.enter depth') := by
  -- Where the other side is given up, it is let pass, or this side is given up as well.
  induction depth' generalizing depth with
  | zero =>
    intro name inner n _ _
    rcases hl with hl | rfl
    · exact fun s t _ => .givenUp _ t hl
    · exact follows_throw .abandoned
  | succ depth' ih =>
    obtain _ | depth := depth
    · exact absurd hd (Nat.not_succ_le_zero depth')
    have hi : Nested.Steady L rules (library.enter depth) (library.enter depth') :=
      ih (Nat.le_of_succ_le_succ hd) (hl.imp_right Nat.succ.inj)
    intro name inner n hname hn
    rw [enter_succ, enter_succ]
    cases hr : library.lookup name with
    | none => exact follows_emit _ _
    | some r =>
      have hs := RuleSet.steps_execute hp hi (h name r hname hr) inner hn
      exact Follows.bind (follows_emit _ _) fun _ _ => Follows.bind hs fun _ _ => follows_emit _ _

end Library

theorem Block.steps_of_unmoved (hp : ∀ q, L.place q = q) (library : Library) {depth depth' : Nat}
    (hd : depth' ≤ depth) (hl : L.lenient ∨ depth = depth') (context : Context) (ss : Block) :
    Steps L (Block.execute (library.enter depth) context ss)
      (Block.execute (library.enter depth') context ss) := by
  have hc : library.Confined (fun _ => True) fun _ => True :=
    library.confined (fun _ => trivial) fun _ => trivial
  have hs : Block.Confined (fun _ => True) (fun _ => True) ss :=
    Block.confined (fun _ => trivial) (fun _ => trivial) ss
  have hn : Nested.Steady L (fun _ => True) (library.enter depth) (library.enter depth') :=
    Library.steady_enter (fun q _ => hp q) hc hd hl
  exact Block.steps_execute (fun q _ => hp q) hn context ss hs

theorem RuleSet.steps_of_unmoved (hp : ∀ q, L.place q = q) (library : Library) (r : RuleSet)
    {depth depth' : Nat} (hd : depth' ≤ depth) (hl : L.lenient ∨ depth = depth') (context : Json)
    {n : Node Content} (hn : n.run = L.source) :
    Steps L (r.execute (library.enter depth) context n)
      (r.execute (library.enter depth') context (L.node n)) :=
  (steps_bindNode r.root hn).bind fun _ _ => Block.steps_of_unmoved hp library hd hl _ r.block

end Vetting
