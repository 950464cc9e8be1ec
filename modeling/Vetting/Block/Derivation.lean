import Vetting.Run.Node
import Vetting.Value.Reader

/-! Steps from one node to another: to a member, to another reading of the same value, or to a given
value. -/

namespace Vetting

inductive Derivation where
  | field (name member : String) (type : FieldType)
  /-- A member that is there whenever its owner is. -/
  | fieldThrough (name member : String) (kind : Kind)
  /-- A member that may be absent even when its owner is there. -/
  | optionalField (name member : String) (kind : Kind)
  | map (type : FieldType)
  | constant (name : Option String) (type : FieldType) (value : Option Json)
  | key (name : String)
  | dereference

namespace Derivation

def name? : Derivation → Option String
  | field name .. => some name
  | fieldThrough name .. => some name
  | optionalField name .. => some name
  | map _ => none
  | constant name .. => name
  | key name => some name
  | dereference => none

def calls (c : Content) : Derivation → Option Bool
  | field .. => some true
  | fieldThrough .. => some c.present?.isSome
  | optionalField .. => some c.present?.isSome
  | map _ => some true
  | constant .. => some false
  | key _ => none
  | dereference => none

def follow? (n : Node Content) : Derivation → Option (Node Content)
  | field name member type =>
    (type.read? (n.value.json?.bind (·.member? member))).map (n.derive (some name))
  | fieldThrough name member kind =>
    let get := fun j : Json => kind.readNeeded? (j.member? member)
    some (((n.map Content.json?).optionalField name get).map .optional)
  | optionalField name member kind =>
    let get := fun j : Json => kind.readMember? (j.member? member)
    some (((n.map Content.json?).optionalField name get).map .optional)
  | map type => (type.read? n.value.json?).map (n.derive none)
  | constant name type value => (type.read? value).map (n.derive name)
  | key name => some (((n.map Content.json?).key name).map fun j => .optional (j.map .json))
  | dereference => some ((n.map Content.text?).map fun s => .optional (s.map .text))

theorem path_follow? {n m : Node Content} {d : Derivation} (h : d.follow? n = some m) :
    m.path = n.path.push (d.name?.getD "") := by
  cases d <;> simp only [follow?, Option.map_eq_some_iff, Option.some.injEq] at h
  case fieldThrough | optionalField | key | dereference =>
    subst h
    apply Path.ext
    simp [Node.map, Node.optionalField, Node.key, name?]
  all_goals
    obtain ⟨c, _, rfl⟩ := h
    simp [name?]

theorem run_follow? {n m : Node Content} {d : Derivation} (h : d.follow? n = some m) :
    m.run = n.run := by
  cases d <;> simp only [follow?, Option.map_eq_some_iff, Option.some.injEq] at h
  case fieldThrough | optionalField | key | dereference =>
    subst h
    rfl
  all_goals
    obtain ⟨c, _, rfl⟩ := h
    rfl

end Derivation

end Vetting
