import Vetting.Block.Effect
import Vetting.Bookshelf
import Vetting.Proofs.Paths

/-! Chains of steps from one node to another. Where a chain leads is told by the names of its steps
alone, whatever is found on the way; what is found is what its accessors make of each other. A step
from a value that may be absent calls its accessor only where the value is there, so once a value is
absent it stays so. Accessors may have effects of their own here: not to call one is not to have
them. -/

namespace Vetting

inductive NullableStep (m : Type → Type) : Type → Type → Type 1 where
  | field {α β : Type} (name : String) (get : α → m β) : NullableStep m α β
  | optionalField {α β : Type} (name : String) (get : α → m (Option β)) : NullableStep m α β
  /-- A reference to a value that may be absent, as a value that may be absent. -/
  | asOption {α : Type} : NullableStep m α α
  /-- Such a reference that may be absent itself. -/
  | flatten {α : Type} : NullableStep m (Option α) α
  | key (name : String) : NullableStep m Json Json

inductive Step (m : Type → Type) : Type → Type → Type 1 where
  | derive {α β : Type} (name : Option String) (value : β) : Step m α β
  | field {α β : Type} (name : String) (get : α → m β) : Step m α β
  | map {α β : Type} (f : α → m β) : Step m α β
  | nullable {α β : Type} (s : NullableStep m α β) : Step m (Option α) (Option β)
  | key (name : String) : Step m Json (Option Json)
  /-- One of the items that a collection hands out; it may have fewer. -/
  | item {α β : Type} (items : α → List β) (index : Nat) : Step m α β

inductive Chain (S : Type → Type → Type 1) : Type → Type → Type 1 where
  | here {α : Type} : Chain S α α
  | step {α β γ : Type} (s : S α β) (rest : Chain S β γ) : Chain S α γ

namespace Chain

def append {S : Type → Type → Type 1} {α β γ : Type} : Chain S α β → Chain S β γ → Chain S α γ
  | here, u => u
  | step s rest, u => step s (rest.append u)

end Chain

variable {m : Type → Type} {α β γ : Type}

namespace NullableStep

def name? : NullableStep m α β → Option String
  | field name _ => some name
  | optionalField name _ => some name
  | asOption => none
  | flatten => none
  | key name => some name

def follow [Monad m] : NullableStep m α β → Node (Option α) → m (Node (Option β))
  | field name get, n => do return n.derive (some name) (← n.value.mapM get)
  | optionalField name get, n => do return n.derive (some name) (← n.value.bindM get)
  | asOption, n => return n.map id
  | flatten, n => return n.flatten
  | key name, n => return n.key name

def read [Monad m] : NullableStep m α β → Option α → m (Option β)
  | _, none => return none
  | field _ get, some a => return some (← get a)
  | optionalField _ get, some a => get a
  | asOption, some a => return some a
  | flatten, some a => return a
  | key name, some j => return j.member? name

end NullableStep

namespace Step

def name? : Step m α β → Option String
  | derive name _ => name
  | field name _ => some name
  | map _ => none
  | nullable s => s.name?
  | key name => some name
  | item _ _ => none

def follow [Monad m] : Step m α β → Node α → OptionT m (Node β)
  | derive name value, n => return n.derive name value
  | field name get, n => do return n.derive (some name) (← OptionT.lift (get n.value))
  | map f, n => do return n.derive none (← OptionT.lift (f n.value))
  | nullable s, n => OptionT.lift (s.follow n)
  | key name, n => return (n.map some).key name
  | item items index, n => OptionT.mk (pure (n.map items).elements[index]?)

def read [Monad m] : Step m α β → α → OptionT m β
  | derive _ value, _ => return value
  | field _ get, a => OptionT.lift (get a)
  | map f, a => OptionT.lift (f a)
  | nullable s, a => OptionT.lift (s.read a)
  | key name, j => return j.member? name
  | item items index, a => OptionT.mk (pure (items a)[index]?)

end Step

namespace Chain

def names {α β : Type} : Chain (Step m) α β → List String
  | here => []
  | step s rest => s.name?.toList ++ rest.names

def follow [Monad m] {α β : Type} : Chain (Step m) α β → Node α → OptionT m (Node β)
  | here, n => return n
  | step s rest, n => do rest.follow (← s.follow n)

def read [Monad m] {α β : Type} : Chain (Step m) α β → α → OptionT m β
  | here, a => return a
  | step s rest, a => do rest.read (← s.read a)

def nullable {α β : Type} :
    Chain (NullableStep m) α β → Chain (Step m) (Option α) (Option β)
  | here => here
  | step s rest => step (.nullable s) rest.nullable

end Chain

section

variable [Monad m] [LawfulMonad m]

theorem NullableStep.follow_eq (s : NullableStep m α β) (n : Node (Option α)) :
    s.follow n = n.derive s.name? <$> s.read n.value := by
  obtain ⟨a, p, run⟩ := n
  cases a with
  | none =>
    cases s <;> simp [follow, read, name?, Node.map, Node.flatten, Node.key, Node.optionalField]
  | some a =>
    cases s <;> simp [follow, read, name?, Node.map, Node.flatten, Node.key, Node.optionalField]

theorem Step.follow_eq (s : Step m α β) (n : Node α) :
    s.follow n = n.derive s.name? <$> s.read n.value := by
  apply OptionT.ext
  cases s with
  | nullable s => simp [follow, read, name?, s.follow_eq]
  | key name => simp [follow, read, name?, Node.key, Node.optionalField, Node.map, Node.derive]
  | item items index =>
    -- Items stand where their collection does.
    have hd : n.derive none = fun b : β => ⟨b, n.path, n.run⟩ :=
      funext fun b => congrArg (Node.mk b · n.run) n.path.push_empty
    simp [follow, read, name?, Node.elements, Node.map, Node.derive, hd]
  | _ => simp [follow, read, name?]

theorem Chain.follow_eq (t : Chain (Step m) α β) (n : Node α) :
    t.follow n = (fun b => ⟨b, n.path ++ .ofList t.names, n.run⟩) <$> t.read n.value := by
  induction t with
  | here => simp [follow, read, names, Path.append_ofList_nil]
  | @step α β γ s rest ih =>
    -- The first name stands before those of the rest.
    have hp : ∀ b : β, (n.derive s.name? b).path ++ .ofList rest.names =
        n.path ++ .ofList (s.name?.toList ++ rest.names) := fun b =>
      n.path.push_getD_append_ofList s.name? rest.names
    rw [follow, read, names, s.follow_eq]
    simp only [ih, bind_map_left, map_bind, hp, Node.run_derive, Node.value_derive]

namespace Chain

theorem follow_append (t : Chain (Step m) α β) (u : Chain (Step m) β γ) (n : Node α) :
    (t.append u).follow n = t.follow n >>= u.follow := by
  induction t with
  | here => rw [append, follow, pure_bind]
  | step s rest ih => simp only [append, follow, ih, bind_assoc]

theorem read_nullable_none (u : Chain (NullableStep m) α β) :
    u.nullable.read none = pure none := by
  induction u with
  | here => rfl
  | step s rest ih =>
    have hs : (Step.nullable s).read none = (pure none : OptionT m _) := by
      rw [Step.read, NullableStep.read]
      exact OptionT.ext (by simp)
    rw [nullable, read, hs, pure_bind, ih]

theorem follow_nullable_of_absent (u : Chain (NullableStep m) α β) {n : Node (Option α)}
    (h : n.value = none) :
    u.nullable.follow n = pure ⟨none, n.path ++ .ofList u.nullable.names, n.run⟩ := by
  rw [follow_eq, h, read_nullable_none, map_pure]

theorem follow_append_nullable (t : Chain (Step m) α (Option β)) (u : Chain (NullableStep m) β γ)
    (n : Node α) :
    (t.append u.nullable).follow n = t.follow n >>= fun k =>
      match k.value with
      | none => pure ⟨none, k.path ++ .ofList u.nullable.names, k.run⟩
      | some _ => u.nullable.follow k := by
  have hk : ∀ k : Node (Option β), u.nullable.follow k =
      match k.value with
      | none => pure ⟨none, k.path ++ .ofList u.nullable.names, k.run⟩
      | some _ => u.nullable.follow k := by
    intro k
    cases h : k.value with
    | none => exact u.follow_nullable_of_absent h
    | some b => rfl
  rw [follow_append]
  exact congrArg _ (funext hk)

end Chain

end

/-! Steps whose accessors do nothing else. -/

def NullableStep.walk : NullableStep Id α β → Node (Option α) → Node (Option β)
  | field name get, n => n.fieldThrough name get
  | optionalField name get, n => n.optionalField name get
  | asOption, n => n.map id
  | flatten, n => n.flatten
  | key name, n => n.key name

def Step.walk : Step Id α β → Node α → Option (Node β)
  | derive name value, n => some (n.derive name value)
  | field name get, n => some (n.field name get)
  | map f, n => some (n.map f)
  | nullable s, n => some (s.walk n)
  | key name, n => some ((n.map some).key name)
  | item items index, n => (n.map items).elements[index]?

def Chain.walk {α β : Type} : Chain (Step Id) α β → Node α → Option (Node β)
  | here, n => some n
  | step s rest, n => (s.walk n).bind rest.walk

theorem NullableStep.follow_id (s : NullableStep Id α β) (n : Node (Option α)) :
    s.follow n = (s.walk n : Id (Node (Option β))) := by
  obtain ⟨a, p, run⟩ := n
  cases a <;> cases s <;> rfl

theorem Step.follow_id (s : Step Id α β) (n : Node α) : (s.follow n).run = (s.walk n : Id _) := by
  cases s with
  | nullable s => exact congrArg some (s.follow_id n)
  | _ => rfl

theorem Chain.follow_id (t : Chain (Step Id) α β) (n : Node α) :
    (t.follow n).run = (t.walk n : Id _) := by
  induction t with
  | here => rfl
  | step s rest ih =>
    have hs : s.follow n = OptionT.mk (s.walk n : Id _) := OptionT.ext (s.follow_id n)
    rw [follow, walk, hs]
    cases s.walk n with
    | none => rfl
    | some k => exact ih k

/-! Members of members, and the items of an array. -/

def Json.Holds (j : Option Json) (name : String) : Prop :=
  ∃ members, j = some (.object members) ∧ name ∈ members.map Prod.fst

namespace Node

def keys (n : Node (Option Json)) (names : List String) : Node (Option Json) := names.foldl key n

theorem path_keys (n : Node (Option Json)) (names : List String) :
    (n.keys names).path = n.path ++ .ofList names := by
  induction names generalizing n with
  | nil => exact n.path.append_ofList_nil.symm
  | cons name names ih =>
    have hk : (n.key name).path = n.path.push name := rfl
    rw [keys, List.foldl_cons]
    exact (ih (n.key name)).trans (hk ▸ n.path.push_append_ofList name names)

theorem isSome_key_iff (n : Node (Option Json)) (name : String) :
    (n.key name).value.isSome = true ↔ Json.Holds n.value name := by
  have hv : (n.key name).value = n.value.bind (·.member? name) := rfl
  rw [hv, Json.Holds]
  cases n.value with
  | none => simp
  | some j =>
    cases j with
    | object members =>
      simp [Json.member?, List.lookup_isSome_iff]
    | null | bool | number | text | array => simp [Json.member?]

theorem isSome_keys_iff (n : Node (Option Json)) (names : List String) :
    (n.keys names).value.isSome = true ↔
      n.value.isSome = true ∧ ∀ before name after, names = before ++ name :: after →
        Json.Holds (n.keys before).value name := by
  induction names generalizing n with
  | nil => simp [keys]
  | cons name names ih =>
    have hc : ∀ before, n.keys (name :: before) = (n.key name).keys before := fun _ => rfl
    rw [hc, ih, isSome_key_iff]
    constructor
    · rintro ⟨hn, hr⟩
      have hs : n.value.isSome = true := by
        obtain ⟨members, hm, -⟩ := hn
        rw [hm, Option.isSome_some]
      refine ⟨hs, fun before other after h => ?_⟩
      -- The name is the first one, or the way to its owner leads through the first one.
      cases before with
      | nil =>
        cases h
        exact hn
      | cons first before =>
        cases h
        exact hr before other after rfl
    · rintro ⟨-, h⟩
      exact ⟨h [] name names rfl, fun before other after hb =>
        h (name :: before) other after (congrArg (name :: ·) hb)⟩

end Node

theorem Traversal.nodes_elements (n : Node Content) :
    elements.nodes n =
      match n.value.json? with
      | some (.array js) => js.map fun j => ⟨.plain (.json j), n.path, n.run⟩
      | _ => [] := by
  have hd : n.derive none = fun c : Content => ⟨c, n.path, n.run⟩ :=
    funext fun c => congrArg (Node.mk c · n.run) n.path.push_empty
  rw [nodes, hd, Content.elements]
  cases n.value.json? with
  | none => rfl
  | some j =>
    cases j with
    | array js => simp [Json.items]
    | null | bool | number | text | object => rfl

/-! The steps that blocks take. -/

namespace Derivation

def nullable : Derivation → Bool
  | fieldThrough .. => true
  | optionalField .. => true
  | key _ => true
  | dereference => true
  | _ => false

def chain : Derivation → Chain (Step Option) Content Content
  | field name member type =>
    .step (.field name fun c => type.read? (c.json?.bind (·.member? member))) .here
  | fieldThrough name member kind =>
    .step (.map fun c => some c.json?) <|
      .step (.nullable (.optionalField name fun j => some (kind.readNeeded? (j.member? member)))) <|
        .step (.map fun v => some (.optional v)) .here
  | optionalField name member kind =>
    .step (.map fun c => some c.json?) <|
      .step (.nullable (.optionalField name fun j => some (kind.readMember? (j.member? member)))) <|
        .step (.map fun v => some (.optional v)) .here
  | map type => .step (.map fun c => type.read? c.json?) .here
  | constant name type value => .step (.field (name.getD "") fun _ => type.read? value) .here
  | key name =>
    .step (.map fun c => some c.json?) <|
      .step (.nullable (.key name)) <| .step (.map fun j => some (.optional (j.map .json))) .here
  | dereference =>
    .step (.map fun c => some c.text?) <|
      .step (.nullable .asOption) <| .step (.map fun s => some (.optional (s.map .text))) .here

theorem follow_optionalField_some (name : String) (get : α → Option β) (n : Node (Option α)) :
    (NullableStep.optionalField name fun a => some (get a)).follow n =
      some (n.optionalField name get) := by
  cases h : n.value <;> simp [NullableStep.follow, Node.optionalField, h]

theorem follow?_eq (d : Derivation) (n : Node Content) :
    d.follow? n = (d.chain.follow n).run.join := by
  cases d with
  | field name member type =>
    cases hr : type.read? (n.value.json?.bind (·.member? member)) <;>
      simp [follow?, chain, Chain.follow, Step.follow, hr]
  | map type =>
    cases hr : type.read? n.value.json? <;>
      simp [follow?, chain, Chain.follow, Step.follow, hr]
  | constant name type value =>
    cases hr : type.read? value <;> simp [follow?, chain, Chain.follow, Step.follow, hr]
    rfl
  | fieldThrough | optionalField =>
    simp only [follow?, chain, Chain.follow, Step.follow, follow_optionalField_some]
    rfl
  | key | dereference => rfl

def walk? (ds : List Derivation) (n : Node Content) : Option (Node Content) :=
  ds.foldlM (fun k d => d.follow? k) n

def names (ds : List Derivation) : List String := ds.map fun d => d.name?.getD ""

def chains (ds : List Derivation) : Chain (Step Option) Content Content :=
  ds.foldr (fun d t => d.chain.append t) .here

theorem walk?_cons (d : Derivation) (ds : List Derivation) (n : Node Content) :
    walk? (d :: ds) n = (d.follow? n).bind (walk? ds) := List.foldlM_cons ..

theorem walk?_eq (ds : List Derivation) (n : Node Content) :
    walk? ds n = ((chains ds).follow n).run.join := by
  induction ds generalizing n with
  | nil => rfl
  | cons d ds ih =>
    have hc : chains (d :: ds) = d.chain.append (chains ds) := rfl
    rw [walk?_cons, hc, Chain.follow_append, follow?_eq, OptionT.run_bind]
    cases (d.chain.follow n).run with
    | none => rfl
    | some r =>
      cases r with
      | none => rfl
      | some k => exact ih k

theorem path_walk? {ds : List Derivation} {n k : Node Content} (h : walk? ds n = some k) :
    k.path = n.path ++ .ofList (names ds) := by
  induction ds generalizing n with
  | nil =>
    cases Option.some.inj h
    exact k.path.append_ofList_nil.symm
  | cons d ds ih =>
    rw [walk?_cons] at h
    obtain ⟨l, hl, hk⟩ := Option.bind_eq_some_iff.mp h
    rw [ih hk, path_follow? hl]
    exact n.path.push_append_ofList _ _

theorem follow?_of_absent {d : Derivation} (hd : d.nullable = true) {n : Node Content}
    (hn : n.value.present? = none) :
    ∃ k, d.follow? n = some k ∧ k.value.present? = none ∧ d.calls n.value ≠ some true := by
  have hj : n.value.json? = none := by rw [Content.json?, hn]
  have ht : n.value.text? = none := by rw [Content.text?, hn]
  cases d with
  | fieldThrough | optionalField | key | dereference =>
    refine ⟨_, rfl, ?_, by simp [calls, hn]⟩
    simp [Node.map, Node.key, Node.optionalField, Content.present?, hj, ht]
  | field | map | constant => cases hd

theorem walk?_of_absent {ds : List Derivation} (hd : ∀ d ∈ ds, d.nullable = true)
    {n : Node Content} (hn : n.value.present? = none) :
    ∃ k, walk? ds n = some k ∧ k.value.present? = none := by
  induction ds generalizing n with
  | nil => exact ⟨n, rfl, hn⟩
  | cons d ds ih =>
    obtain ⟨l, hl, habs, -⟩ := follow?_of_absent (hd d List.mem_cons_self) hn
    obtain ⟨k, hk, hka⟩ := ih (fun e he => hd e (List.mem_cons_of_mem d he)) habs
    exact ⟨k, by rw [walk?_cons, hl, Option.bind_some, hk], hka⟩

theorem calls_of_absent {before after : List Derivation} {d : Derivation}
    (hd : ∀ e ∈ before ++ d :: after, e.nullable = true) {n k : Node Content}
    (hn : n.value.present? = none) (hk : walk? before n = some k) :
    d.calls k.value ≠ some true := by
  have hb : ∀ e ∈ before, e.nullable = true := fun e he => hd e (List.mem_append_left _ he)
  obtain ⟨l, hl, habs⟩ := walk?_of_absent hb hn
  cases hk.symm.trans hl
  have hs : d.nullable = true := hd d (List.mem_append_right _ List.mem_cons_self)
  obtain ⟨-, -, -, hc⟩ := follow?_of_absent hs habs
  exact hc

end Derivation

/-- A chain of steps leads to the place that its names tell, and what is there is what its accessors
make of each other. Behind an absent value nullable steps lead to absent values and call nothing.
A member of members is there if each name on the way is one of a member of an object, and elements
are the items of an array. The steps that blocks take are chains as well. -/
theorem Chain.leads_by_names (m : Type → Type) [Monad m] [LawfulMonad m] :
    (∀ (α β : Type) (t : Chain (Step m) α β) (n : Node α),
      t.follow n = (fun b => ⟨b, n.path ++ .ofList t.names, n.run⟩) <$> t.read n.value) ∧
    (∀ (α β γ : Type) (t : Chain (Step m) α (Option β)) (u : Chain (NullableStep m) β γ)
      (n : Node α), (t.append u.nullable).follow n = t.follow n >>= fun k =>
        match k.value with
        | none => pure ⟨none, k.path ++ .ofList u.nullable.names, k.run⟩
        | some _ => u.nullable.follow k) ∧
    (∀ (α β : Type) (t : Chain (Step Id) α β) (n : Node α), (t.follow n).run.run = t.walk n) ∧
    (∀ (n : Node (Option Json)) (names : List String),
      (n.keys names).path = n.path ++ .ofList names ∧
      ((n.keys names).value.isSome = true ↔ n.value.isSome = true ∧
        ∀ before name after, names = before ++ name :: after →
          Json.Holds (n.keys before).value name)) ∧
    (∀ n : Node Content, Traversal.elements.nodes n =
      match n.value.json? with
      | some (.array js) => js.map fun j => ⟨.plain (.json j), n.path, n.run⟩
      | _ => []) ∧
    (∀ (ds : List Derivation) (n : Node Content),
      Derivation.walk? ds n = ((Derivation.chains ds).follow n).run.join ∧
      (∀ k, Derivation.walk? ds n = some k → k.path = n.path ++ .ofList (Derivation.names ds)) ∧
      (n.value.present? = none → (∀ d ∈ ds, d.nullable = true) →
        (∃ k, Derivation.walk? ds n = some k ∧ k.value.present? = none) ∧
        ∀ before d after, ds = before ++ d :: after → ∀ k,
          Derivation.walk? before n = some k → d.calls k.value ≠ some true)) := by
  refine ⟨fun α β t n => t.follow_eq n, fun α β γ t u n => t.follow_append_nullable u n,
    fun α β t n => congrArg Id.run (t.follow_id n),
    fun n names => ⟨n.path_keys names, n.isSome_keys_iff names⟩, Traversal.nodes_elements,
    fun ds n => ⟨Derivation.walk?_eq ds n, fun k => Derivation.path_walk?, fun hn hd => ⟨?_, ?_⟩⟩⟩
  · exact Derivation.walk?_of_absent hd hn
  · rintro before d after rfl k hk
    exact Derivation.calls_of_absent hd hn hk

namespace Bookshelf

def counted {α β : Type} (get : α → β) (a : α) : StateM Nat β := do
  modify (· + 1)
  return get a

def toAuthor : Chain (Step (StateM Nat)) Book (Option Author) :=
  .step (.field "author" (counted Book.author)) .here

def toName : Chain (NullableStep (StateM Nat)) Author String :=
  .step .asOption <| .step (.field "name" (counted Author.name)) .here

theorem author_name_followed :
    let chain := toAuthor.append toName.nullable
    let anonymous : Node Book := ⟨⟨"Edda", 1, none, []⟩, .root, 0⟩
    let signed : Node Book := ⟨⟨"Emma", 1, some ⟨"Jane", none⟩, []⟩, .root, 0⟩
    chain.names = ["author", "name"] ∧
      StateT.run (chain.follow anonymous).run 0 = (some ⟨none, .ofList chain.names, 0⟩, 1) ∧
      StateT.run (chain.follow signed).run 0 = (some ⟨some "Jane", .ofList chain.names, 0⟩, 2) ∧
      StateT.run (chain.read signed.value).run 0 = (some (some "Jane"), 2) := by
  intro chain anonymous signed
  obtain ⟨hfollow, habsent, -⟩ := Chain.leads_by_names (StateM Nat)
  refine ⟨rfl, ?_, ?_, rfl⟩
  · simp only [chain, habsent]
    rfl
  · rw [hfollow]
    rfl

end Bookshelf

end Vetting
