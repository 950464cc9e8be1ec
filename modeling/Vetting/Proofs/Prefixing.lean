import Vetting.Proofs.Block.Atomicity
import Vetting.Proofs.Relocation

/-! Where the root of a run stands makes no difference but in the paths of its report, for rules
that name no place themselves. Rules that are applied within others, to a node that has been derived
there, report below that node what they report of its value in a run of their own; what is
configured for such a run does not matter. -/

namespace Vetting

theorem Block.execute_append (nested : Nested) (context : Context) (ss ss' : List Statement) :
    Block.execute nested context (ss ++ ss') =
      Block.execute nested context ss >>= fun _ => Block.execute nested context ss' := by
  induction ss with
  | nil =>
    rw [List.nil_append, execute_nil, pure_bind]
  | cons s ss ih =>
    rw [List.cons_append, execute_cons, execute_cons, ih, bind_assoc]

namespace Effect

open Vetting.Action

theorem still_derive (source target : Name) (step : Derivation) :
    Still (derive source target step) := by
  intro s
  rw [derive, run_withNode]
  cases s.scope.nodes.get? source with
  | none => rfl
  | some n =>
    dsimp only
    cases step.follow? n with
    | none => rfl
    | some m => rfl

end Effect

theorem Block.still_of_derives (nested : Nested) (context : Context) {ss : List Statement}
    (h : ∀ s ∈ ss, ∃ source target step, s = .derive source target step) :
    Action.Still (Block.execute nested context ss) := by
  induction ss with
  | nil =>
    rw [execute_nil]
    exact fun _ => rfl
  | cons s ss ih =>
    obtain ⟨source, target, step, rfl⟩ := h s List.mem_cons_self
    rw [execute_cons]
    exact (Effect.still_derive source target step).bind fun _ =>
      ih fun s hs => h s (List.mem_cons_of_mem _ hs)

namespace Action

theorem run_between (e e' : Event) (act : Action Unit) (s : State) :
    ((do emit e; act; emit e').run s).1 = (act.run { s with events := s.events.push e }).1 ∧
      ((do emit e; act; emit e').run s).2.runs =
        (act.run { s with events := s.events.push e }).2.runs := by
  have he : (emit e).run s = (.ok (), { s with events := s.events.push e }) := rfl
  rw [run_bind, he]
  dsimp only
  rw [run_bind]
  cases act.run { s with events := s.events.push e } with
  | mk outcome t => cases outcome <;> exact ⟨rfl, rfl⟩

theorem SelfContained.between {e e' : Event} {act : Action Unit} {s : State}
    (h : SelfContained (do emit e; act; emit e') s) :
    act.SelfContained { s with events := s.events.push e } := by
  obtain ⟨h1, h2⟩ := h
  obtain ⟨ha, hb⟩ := run_between e e' act s
  obtain ⟨ha', hb'⟩ := run_between e e' act { s with scope := .empty }
  exact ⟨ha'.symm.trans (h1.trans ha), hb'.symm.trans (h2.trans hb)⟩

end Action

theorem Library.nested_of_lookup {library : Library} {name : Name} {r : RuleSet}
    (h : library.lookup name = some r) (context : Json) (n : Node Content) :
    library.nested name context n =
      (do Action.emit .entered
          r.execute (library.enter (depthLimit - 1)) context n
          Action.emit .left) := by
  change library.enter (depthLimit - 1 + 1) name context n = _
  rw [enter_succ, h]

namespace Validator

def movedTo (v : Validator) (p : Path) : Validator :=
  { v with configuration := { v.configuration with rootPath := p } }

/-- The rules, and those that they may come to apply, report violations at the paths of nodes only.
-/
def Relative (v : Validator) : Prop :=
  ∃ rules : Name → Prop, Block.Confined (fun _ => False) rules v.rules.block ∧
    v.library.Confined (fun _ => False) rules

theorem Relative.steps {v : Validator} (h : v.Relative) (L : Transfer) (depth : Nat)
    (context : Json) {n : Node Content} (hn : n.run = L.source) :
    Action.Steps L (v.rules.execute (v.library.enter depth) context n)
      (v.rules.execute (v.library.enter depth) context (L.node n)) := by
  obtain ⟨rules, hb, hl⟩ := h
  have hp : ∀ q : Path, False → L.place q = q := fun _ hq => hq.elim
  exact RuleSet.steps_execute hp (Library.steady_enter hp hl (Nat.le_refl depth) (.inr rfl)) hb
    context hn

theorem Relative.below_movedTo {v : Validator} (hv : v.Relative) (p : Path)
    (subject context : Json) {s : State}
    (h : (v.movedTo .root).SelfContained subject context s)
    (h' : (v.movedTo p).SelfContained subject context s) :
    Outcome.Below p subject subject (((v.movedTo .root).run subject context).run s).1
      (((v.movedTo p).run subject context).run s).1 := by
  refine below_run p subject context rfl h h' ?_
  have hn : (Mapping.below p s.nextRun s.nextRun).node
      (((v.movedTo .root).openRun subject).run s).1 =
        (((v.movedTo p).openRun subject).run s).1 := Mapping.below_node_root ..
  rw [← hn]
  exact hv.steps (.relocation p s.nextRun s.nextRun False) Library.depthLimit context rfl

def validateWithin (v : Validator) (depth : Nat) (subject context : Json) : Outcome :=
  let opened := (v.openRun subject).run .initial
  v.conclude subject opened.1.run
    ((v.rules.execute (v.library.enter depth) context opened.1).run opened.2)

theorem validateWithin_of_le (v : Validator) {depth depth' : Nat} (h : depth ≤ depth')
    (subject context : Json) :
    v.validateWithin depth subject context = .abandoned ∨
      v.validateWithin depth subject context = v.validateWithin depth' subject context := by
  let opened := (v.openRun subject).run .initial
  let L : Transfer := .relocation .root opened.1.run opened.1.run True
  have hn : L.node opened.1 = opened.1 := Mapping.below_root_node ..
  have hs := RuleSet.steps_of_unmoved (L := L) Path.root_append v.library v.rules h (.inl trivial)
    context (n := opened.1) rfl
  rw [hn] at hs
  have he := Action.SelfContained.ends (s := opened.2) (t := opened.2) ⟨rfl, rfl⟩ ⟨rfl, rfl⟩ hs
    (Transfer.matches_start .root State.initial.runs State.initial.runs True)
  rcases he.below v v rfl subject subject with hb | ⟨-, ha⟩
  · exact .inr hb.eq_of_root
  · exact .inl ha

/-- The rules follow these steps from their root, apply the inner rules to what is then called by
the name, and do nothing else. -/
structure Delegates (outer inner : Validator) (steps : List Statement) (x rules : Name)
    (context : Json) : Prop where
  derives : ∀ s ∈ steps, ∃ source target step, s = .derive source target step
  block : outer.rules.block = steps ++ [.nest x rules context]
  found : outer.library.lookup rules = some inner.rules
  library : inner.library = outer.library

def follow (v : Validator) (steps : List Statement) (subject context : Json) (s : State) :
    Except Halt Unit × State :=
  let opened := (v.openRun subject).run s
  (RuleSet.execute v.library.nested ⟨v.rules.root, v.rules.takesContext, steps⟩ context
    opened.1).run opened.2

variable {outer inner : Validator} {steps : List Statement} {x rules : Name} {context : Json}

theorem Delegates.runs_follow (h : outer.Delegates inner steps x rules context)
    (subject context' : Json) (s : State) :
    (outer.follow steps subject context' s).2.runs = s.runs.start.2 :=
  Block.still_of_derives _ _ h.derives _

theorem Delegates.play_eq (h : outer.Delegates inner steps x rules context)
    (subject context' : Json) {s t : State} {n : Node Content}
    (ht : outer.follow steps subject context' s = (.ok (), t))
    (hx : t.scope.nodes.get? x = some n) :
    outer.play subject context' s = (outer.library.nested rules context n).run t := by
  have hb : ∀ root : Node Content, outer.rules.execute outer.library.nested context' root =
      RuleSet.execute outer.library.nested ⟨outer.rules.root, outer.rules.takesContext, steps⟩
        context' root >>= fun _ => Action.withNode x (outer.library.nested rules context) := by
    intro root
    have hn : ∀ c : Context,
        Block.execute outer.library.nested c [.nest x rules context] =
          Action.withNode x (outer.library.nested rules context) := fun c => by
      rw [Block.execute_cons, Block.execute_nil, Statement.execute_nest, bind_pure_unit]
    simp only [RuleSet.execute_eq, h.block, Block.execute_append, hn, bind_assoc]
  rw [follow] at ht
  rw [play, hb, Action.run_bind, ht]
  dsimp only
  rw [Action.run_withNode, hx]

/-- The inner rules, in a run of their own that differs in the message for violations without one.
-/
def alone (outer inner : Validator) : Validator :=
  { inner with configuration := ⟨outer.configuration.defaultMessage, .root⟩ }

theorem Delegates.below (h : outer.Delegates inner steps x rules context) (hv : inner.Relative)
    (subject context' j : Json) {p : Path} {s t : State}
    (ht : outer.follow steps subject context' s = (.ok (), t))
    (hx : t.scope.nodes.get? x = some ⟨.plain (.json j), p, s.nextRun⟩)
    (hc : (outer.library.nested rules context ⟨.plain (.json j), p, s.nextRun⟩).SelfContained t) :
    Outcome.Below p j subject
      ((outer.alone inner).validateWithin (Library.depthLimit - 1) j context)
      ((outer.run subject context').run s).1 := by
  let L : Transfer := .relocation p State.initial.nextRun s.nextRun False
  let opened := ((outer.alone inner).openRun j).run .initial
  have hn : L.node opened.1 = ⟨.plain (.json j), p, s.nextRun⟩ := Mapping.below_node_root ..
  have hr : t.runs = s.runs.start.2 := by
    rw [← h.runs_follow subject context' s, ht]
  have hm : L.Matches opened.2.runs t.runs := by
    rw [hr]
    exact Transfer.matches_start p State.initial.runs s.runs False
  have hs := Relative.steps (v := outer.alone inner) hv L (Library.depthLimit - 1) context
    (n := opened.1) rfl
  have hl : (outer.alone inner).library = outer.library := h.library
  rw [hn, hl] at hs
  rw [Library.nested_of_lookup h.found] at hc
  have he := Action.SelfContained.ends (s := opened.2) ⟨rfl, rfl⟩ hc.between hs hm
  have hb := (he.below (outer.alone inner) outer rfl j subject).resolve_right
    fun hf => hf.1
  obtain ⟨h1, h2⟩ := Action.run_between .entered .left
    (inner.rules.execute (outer.library.enter (Library.depthLimit - 1)) context
      ⟨.plain (.json j), p, s.nextRun⟩) t
  rw [run_eq_conclude, h.play_eq subject context' ht hx, Library.nested_of_lookup h.found,
    outer.conclude_congr subject s.nextRun h1 h2, validateWithin, hl]
  exact hb

theorem validateWithin_depthLimit (v : Validator) (subject context : Json) :
    v.validateWithin Library.depthLimit subject context = v.validate subject context :=
  (v.run_eq_conclude subject context .initial).symm

/-- Rules that name no place, and use only what they make themselves, come to the same outcome with
their root at a path as with their root at none, but with all paths below that path. And a run that
only derives a node and applies such rules to it comes to the outcome below that node which the
rules have in a run of their own, with the message that the outer run has for violations without
one; they are only given up one level sooner than there. -/
theorem paths_prefixed :
    (∀ (v : Validator) (p : Path) (subject context : Json) (s : State), v.Relative →
      (v.movedTo .root).SelfContained subject context s →
      (v.movedTo p).SelfContained subject context s →
      Outcome.Below p subject subject (((v.movedTo .root).run subject context).run s).1
        (((v.movedTo p).run subject context).run s).1) ∧
    ∀ (outer inner : Validator) (steps : List Statement) (x rules : Name)
      (subject context j context' : Json) (p : Path) (s t : State),
      outer.Delegates inner steps x rules context' → inner.Relative →
      outer.follow steps subject context s = (.ok (), t) →
      t.scope.nodes.get? x = some ⟨.plain (.json j), p, s.nextRun⟩ →
      (outer.library.nested rules context' ⟨.plain (.json j), p, s.nextRun⟩).SelfContained t →
      let own := (outer.alone inner).validateWithin (Library.depthLimit - 1) j context'
      Outcome.Below p j subject own ((outer.run subject context).run s).1 ∧
        (own = .abandoned ∨ own = (outer.alone inner).validate j context') := by
  refine ⟨fun v p subject context s hv => hv.below_movedTo p subject context, ?_⟩
  intro outer inner steps x rules subject context j context' p s t h hv ht hx hc own
  refine ⟨h.below hv subject context j ht hx hc, ?_⟩
  rw [← validateWithin_depthLimit]
  exact (outer.alone inner).validateWithin_of_le (Nat.sub_le Library.depthLimit 1) j context'

def located : RuleSet :=
  ⟨"place", false,
    [.derive "place" "code" (.key "code"),
      .constrain "code" none .always 0 (.present true) false,
      .report "place" none "Unknown place" .unwind]⟩

def locating : Validator := ⟨located, .standard, [("located", located)]⟩

def ordering : Validator :=
  ⟨⟨"root", false,
    [.derive "root" "address" (.field "address" "address" ⟨.json, false⟩),
      .nest "address" "located" .null]⟩,
    ⟨"Please check", .ofList ["order"]⟩, locating.library⟩

theorem locating_relative : locating.Relative := by
  have hb : Block.Confined (fun _ => False) (· = "located") located.block :=
    ⟨trivial, trivial, nofun, trivial⟩
  refine ⟨(· = "located"), hb, ?_⟩
  rintro name r rfl hr
  cases hr
  exact hb

theorem ordering_reports :
    let p : Path := .ofList ["order", "address"]
    let address : Json := .object []
    let order : Json := .object [("address", address)]
    Outcome.Below p address address
        (((locating.movedTo .root).run address .null).run .initial).1
        (((locating.movedTo p).run address .null).run .initial).1 ∧
      Outcome.Below p address order
        ((ordering.alone locating).validateWithin (Library.depthLimit - 1) address .null)
        ((ordering.run order .null).run .initial).1 ∧
      ∃ report, ((ordering.run order .null).run .initial).1 = .failure report ∧
        report.toList = [⟨p.push "code", "Please check"⟩, ⟨p, "Unknown place"⟩] := by
  intro p address order
  let steps : List Statement :=
    [.derive "root" "address" (.field "address" "address" ⟨.json, false⟩)]
  have hd : ordering.Delegates locating steps "address" "located" .null :=
    { derives := fun s hs => by
        cases List.mem_singleton.mp hs
        exact ⟨_, _, _, rfl⟩
      block := rfl
      found := rfl
      library := rfl }
  have hc : (ordering.library.nested "located" .null ⟨.plain (.json address), p, 0⟩).SelfContained
      (ordering.follow steps order .null .initial).2 := ⟨rfl, rfl⟩
  obtain ⟨hm, ha⟩ := paths_prefixed
  refine ⟨hm locating p address .null .initial locating_relative
    (selfContained_of_empty _ _ _ rfl) (selfContained_of_empty _ _ _ rfl), ?_, ?_⟩
  · exact (ha ordering locating steps "address" "located" order .null address .null p .initial _ hd
      locating_relative rfl rfl hc).1
  · exact ⟨⟨[⟨p.push "code", "Please check"⟩, ⟨p, "Unknown place"⟩], List.cons_ne_nil _ _⟩,
      rfl, rfl⟩

end Validator

end Vetting
