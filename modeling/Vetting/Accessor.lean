import Vetting.Run.Node

/-! Accessors: the named fields of an owner, as nodes of the owner's node, or of the node of an
owner that may be absent. -/

namespace Vetting

structure Accessor (α β : Type) where
  name : String
  get : α → β

namespace Accessor

variable {α β : Type}

def node (a : Accessor α β) (owner : Node α) : Node β := owner.field a.name a.get

def nullable (a : Accessor α β) (owner : Node (Option α)) : Node (Option β) :=
  owner.fieldThrough a.name a.get

end Accessor

end Vetting
