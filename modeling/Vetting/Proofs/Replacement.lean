import Mathlib.Data.Finset.Range
import Vetting.Proofs.Block.Modes

/-! Constraints that are declared asynchronously, and awaited at once, where they were declared
directly. That gives them other declaring places; as long as different places stay different, a run
comes to the same outcome. -/

namespace Vetting

open Vetting.Action

/-- Which of the places where predicates are declared directly declare them asynchronously instead,
and what numbers all places have then. -/
structure Replacement where
  replaced : Nat → Bool
  number : Form → Nat → Nat

namespace Replacement

variable (r : Replacement)

def form : Form → Nat → Form
  | .always, site => if r.replaced site then .suspending else .always
  | form, _ => form

def place (p : Form × Nat) : Form × Nat := (r.form p.1 p.2, r.number p.1 p.2)

theorem form_cases (form : Form) (site : Nat) :
    r.form form site = form ∨ form = .always ∧ r.form form site = .suspending := by
  cases form with
  | always =>
    cases hr : r.replaced site with
    | true => exact .inr ⟨rfl, if_pos hr⟩
    | false => exact .inl (if_neg (by simp [hr]))
  | ifPresent | fallible | suspending => exact .inl rfl

def Distinct (places : List (Form × Nat)) : Prop :=
  ∀ p ∈ places, ∀ q ∈ places, r.place p = r.place q → p = q

instance (places : List (Form × Nat)) : Decidable (r.Distinct places) :=
  inferInstanceAs (Decidable (∀ p ∈ places, ∀ q ∈ places, r.place p = r.place q → p = q))

def moved (move : Form × Nat → Form × Nat) : Origin → Origin
  | .rule name => .rule name
  | .site form site => .site (move (form, site)).1 (move (form, site)).2

theorem moved_injective {move : Form × Nat → Form × Nat} (h : Function.Injective move) :
    Function.Injective (moved move) := by
  intro o o' he
  cases o with
  | rule name =>
    cases o' with
    | rule name' => exact he
    | site form' site' => cases he
  | site form site =>
    cases o' with
    | rule name' => cases he
    | site form' site' =>
      injection he with hf hs
      cases h (Prod.ext hf hs)
      rfl

theorem exists_renaming {places : List (Form × Nat)} (h : r.Distinct places) :
    ∃ f : Renaming, ∀ form site, (form, site) ∈ places →
      f.origin (.site form site) = .site (r.form form site) (r.number form site) := by
  obtain ⟨bound, hb⟩ := (places.map fun p => r.number p.1 p.2).toFinset.exists_nat_subset_range
  have hlt : ∀ p ∈ places, (r.place p).2 < bound := fun p hp =>
    Finset.mem_range.mp (hb (List.mem_toFinset.mpr (List.mem_map_of_mem hp)))
  -- All other places are moved out of the way, beyond the numbers in use.
  let move (p : Form × Nat) : Form × Nat := if p ∈ places then r.place p else (p.1, p.2 + bound)
  have hm : Function.Injective move := by
    intro p q he
    simp only [move] at he
    split at he <;> split at he
    case isTrue.isTrue hp hq => exact h p hp q hq he
    case isTrue.isFalse hp hq =>
      have hn := hlt p hp
      rw [he] at hn
      exact absurd hn (by simp)
    case isFalse.isTrue hp hq =>
      have hn := hlt q hq
      rw [← he] at hn
      exact absurd hn (by simp)
    case isFalse.isFalse hp hq =>
      injection he with hf hs
      exact Prod.ext hf (Nat.add_right_cancel hs)
  refine ⟨⟨moved move, moved_injective hm, fun _ => rfl⟩, fun form site hp => ?_⟩
  simp only [moved, move, if_pos hp]
  rfl

end Replacement

mutual

def Statement.replace (r : Replacement) : Statement → Statement
  | .constrain node target form site predicate propagates =>
    .constrain node target (r.form form site) (r.number form site) predicate propagates
  | .start node target site predicate =>
    .start node target (r.number .suspending site) predicate
  | .branch condition yes no => .branch condition (Block.replace r yes) (Block.replace r no)
  | .each node element way body => .each node element way (Block.replace r body)
  | .together group member body => .together group member (Block.replace r body)
  | s => s

def Block.replace (r : Replacement) : List Statement → List Statement
  | [] => []
  | s :: ss => Statement.replace r s :: Block.replace r ss

end

def RuleSet.replace (r : Replacement) (rules : RuleSet) : RuleSet :=
  { rules with block := Block.replace r rules.block }

def Library.replace (r : Replacement) (library : Library) : Library :=
  library.map fun entry => (entry.1, entry.2.replace r)

def Validator.replace (r : Replacement) (v : Validator) : Validator :=
  { v with rules := v.rules.replace r, library := v.library.replace r }

def Statement.place? : Statement → Option (Form × Nat)
  | .constrain _ _ form site _ _ => some (form, site)
  | .start _ _ site _ => some (.suspending, site)
  | _ => none

def Validator.places (v : Validator) : List (Form × Nat) := v.leaves.filterMap Statement.place?

/-! Instead of the blocks, the mode in which they are carried out may be changed. -/

def Mode.replacing {m : Type → Type u} (mode : Mode m) (r : Replacement) : Mode m :=
  { mode with
    constrain := fun context node target form site predicate propagates =>
      mode.constrain context node target (r.form form site) (r.number form site) predicate
        propagates
    start := fun context node target site predicate =>
      mode.start context node target (r.number .suspending site) predicate }

section

variable {m : Type → Type u} [Monad m] (mode : Mode m) (r : Replacement)
  (nested : Name → Json → Node Content → m Unit) (context : Context)

mutual

theorem Statement.carryOut_replace :
    ∀ s : Statement,
      (s.replace r).carryOut mode nested context = s.carryOut (mode.replacing r) nested context
  | .branch condition yes no => by
    rw [Statement.replace, Statement.carryOut, Statement.carryOut, Block.carryOut_replace yes,
      Block.carryOut_replace no]
    rfl
  | .each node element way body => by
    rw [Statement.replace, Statement.carryOut, Statement.carryOut, Block.carryOut_replace body]
    rfl
  | .together group member body => by
    rw [Statement.replace, Statement.carryOut, Statement.carryOut, Block.carryOut_replace body]
    rfl
  | .nest .. | .derive .. | .ask .. | .apply .. | .constrain .. | .start .. | .await ..
  | .otherwise .. | .inspect .. | .resolve .. | .sameOrigin .. | .register .. | .report ..
  | .fail .. | .suspend | .hang => rfl

theorem Block.carryOut_replace :
    ∀ ss : List Statement,
      Block.carryOut mode nested context (Block.replace r ss) =
        Block.carryOut (mode.replacing r) nested context ss
  | [] => by rw [Block.replace, Block.carryOut, Block.carryOut]
  | s :: ss => by
    rw [Block.replace, Block.carryOut, Block.carryOut, Statement.carryOut_replace s,
      Block.carryOut_replace ss]

end

theorem RuleSet.carryOut_replace (rules : RuleSet) (context : Json) (n : Node Content) :
    (rules.replace r).carryOut mode nested context n =
      rules.carryOut (mode.replacing r) nested context n := by
  rw [RuleSet.carryOut, RuleSet.carryOut, RuleSet.replace, Block.carryOut_replace]
  rfl

theorem Library.lookup_replace (library : Library) (name : Name) :
    (library.replace r).lookup name = (library.lookup name).map (RuleSet.replace r) := by
  induction library with
  | nil => rfl
  | cons entry library ih =>
    obtain ⟨name', rules⟩ := entry
    simp only [Library.replace, List.map_cons, List.lookup_cons] at ih ⊢
    cases name == name' with
    | true => rfl
    | false => exact ih

theorem Library.enterIn_replace (library : Library) :
    ∀ depth, (library.replace r).enterIn mode depth = library.enterIn (mode.replacing r) depth
  | 0 => rfl
  | depth + 1 => by
    funext name context n
    rw [Library.enterIn, Library.enterIn]
    dsimp only
    rw [lookup_replace]
    cases library.lookup name with
    | none => rfl
    | some rules =>
      dsimp only [Option.map_some]
      rw [RuleSet.carryOut_replace, Library.enterIn_replace library depth]
      rfl

end

/-! Executed in parallel, a block and the one with the replaced constraints end alike. -/

def Renaming.future (f : Renaming) (g : Future) : Future := { g with origin := f.origin g.origin }

def Renaming.Matches (f : Renaming) (s t : State) : Prop :=
  ∃ fs, f.Relates fs (fs.mapValues f.future) s t

namespace Action

variable {α β : Type} {f : Renaming}

def Matching (f : Renaming) (x y : Action α) : Prop :=
  ∀ s t, f.Matches s t → EndAlike (fun a b s t => a = b ∧ f.Matches s t) (x.run s) (y.run t)

theorem Parallel.matching {x y : Action α} (h : Parallel f Eq x y) : Matching f x y := by
  rintro s t ⟨fs, hs⟩
  exact (h _ _ s t hs).mono fun a b s t hq => ⟨hq.1, fs, hq.2⟩

theorem Matching.bind {x y : Action α} {k l : α → Action β} (h : Matching f x y)
    (hk : ∀ a, Matching f (k a) (l a)) : Matching f (x >>= k) (y >>= l) := by
  refine fun s t hs => (h s t hs).bind ?_
  rintro a _ s t ⟨rfl, hs⟩
  exact hk a s t hs

theorem matching_bindFuture (x : Name) (g : Future) :
    Matching f (bindFuture x g) (bindFuture x (f.future g)) := by
  rintro s t ⟨fs, hs⟩
  refine .returned ⟨rfl, fs.set x g, hs.runs, hs.nodes, hs.constraints, ?_, ?_⟩
  · exact congrArg (Bindings.set · x g) hs.futures
  · change t.scope.futures.set x _ = _
    rw [hs.futures', Bindings.set_mapValues]

theorem matching_takeFuture (x : Name) {k l : Option Future → Action β}
    (hk : ∀ g, Matching f (k g) (l (g.map f.future))) :
    Matching f (takeFuture x >>= k) (takeFuture x >>= l) := by
  rintro s t ⟨fs, hs⟩
  have hr : f.Matches { s with scope := { s.scope with futures := s.scope.futures.erase x } }
      { t with scope := { t.scope with futures := t.scope.futures.erase x } } := by
    refine ⟨fs.erase x, hs.runs, hs.nodes, hs.constraints, ?_, ?_⟩
    · exact congrArg (Bindings.erase · x) hs.futures
    · change t.scope.futures.erase x = _
      rw [hs.futures', Bindings.erase_mapValues]
  have hg : t.scope.futures.get? x = (s.scope.futures.get? x).map f.future := by
    rw [hs.futures, hs.futures', Bindings.get?_mapValues]
  change EndAlike _ ((k (s.scope.futures.get? x)).run _) ((l (t.scope.futures.get? x)).run _)
  rw [hg]
  exact hk _ _ _ hr

end Action

namespace Effect

variable {f : Renaming}

theorem matching_start {site site' : Nat}
    (ho : f.origin (.site .suspending site) = .site .suspending site') (context : Context)
    (node target : Name) (predicate : Predicate) :
    Matching f (start context node target site predicate)
      (start context node target site' predicate) := by
  refine (indifferent_node? node f).matching.bind fun n => ?_
  cases n with
  | none => exact (parallel_emit _ _).matching
  | some n =>
    refine (parallel_answer predicate context n.value).matching.bind fun satisfied => ?_
    have hb := matching_bindFuture (f := f) target ⟨n, satisfied, .site .suspending site⟩
    rw [Renaming.future, ho] at hb
    exact hb.bind fun _ => (parallel_emit _ _).matching

theorem matching_await (future : Name) (target : Option Name) :
    Matching f (await future target) (await future target) := by
  refine matching_takeFuture future fun g => ?_
  cases g with
  | none => exact (parallel_emit _ _).matching
  | some g => exact (parallel_record g.node target g.satisfied g.origin none none).matching

end Effect

def Replacement.Renames (r : Replacement) (f : Renaming) (l : Statement) : Prop :=
  ∀ form site, l.place? = some (form, site) →
    f.origin (.site form site) = .site (r.form form site) (r.number form site)

theorem Mode.direct_agrees_replacing (r : Replacement) (f : Renaming) :
    direct.Agrees (direct.replacing r) (r.Renames f) (Matching f) where
  pure _ := (parallel_pure rfl).matching
  bind h hk := h.bind hk
  act h := (h f).matching
  constrain context node target form site predicate propagates h :=
    (Effect.parallel_constrain (h form site rfl) (r.form_cases form site) context node target
      predicate propagates).matching
  start context node target site predicate h :=
    Effect.matching_start (h .suspending site rfl) context node target predicate
  await future target := Effect.matching_await future target
  suspend := (parallel_pure rfl).matching
  hang := (parallel_throw Eq .abandoned).matching

namespace Validator

theorem renames_of_mem_leaves {v : Validator} {r : Replacement} {f : Renaming}
    (h : ∀ form site, (form, site) ∈ v.places →
      f.origin (.site form site) = .site (r.form form site) (r.number form site)) :
    ∀ l ∈ v.leaves, r.Renames f l := fun l hl form site hp =>
  h form site (List.mem_filterMap.mpr ⟨l, hl, hp⟩)

theorem validate_replace (v : Validator) {r : Replacement} (h : r.Distinct v.places)
    (subject context : Json) :
    (v.replace r).validate subject context = v.validate subject context := by
  obtain ⟨f, hf⟩ := r.exists_renaming h
  have hk := List.forall_mem_append.mp (renames_of_mem_leaves hf)
  have ha := Mode.direct_agrees_replacing r f
  have hn := Library.agrees_enterIn ha hk.2 Library.depthLimit
  let opened := (v.openRun subject).run .initial
  have hs : f.Matches opened.2 opened.2 := ⟨[], f.relates_opened v subject⟩
  have he := RuleSet.agrees_carryOut ha hn hk.1 context opened.1 opened.2 opened.2 hs
  rw [← RuleSet.carryOut_replace, ← Library.enterIn_replace] at he
  rw [validate, validate, run_eq_conclude, run_eq_conclude]
  exact (he.mono fun _ _ s t hq => hq.2.choose_spec.runs).conclude_eq rfl subject _

end Validator

end Vetting
