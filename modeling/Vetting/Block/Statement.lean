import Vetting.Block.Derivation
import Vetting.Block.Predicate
import Vetting.Rule.Basic

/-! Blocks: what a validator declares, statement by statement. Nodes, constraints and futures are
called by names, which hold for the rest of the session; rules are called by their names in a
library. -/

namespace Vetting

abbrev Name := String

/-- What a misuse leads to: the run is unwound, or the statement answers with it. -/
inductive Reaction where
  | unwind
  | answer
deriving DecidableEq, Repr

inductive Grouping (α : Type) where
  | single (member : α)
  | and (group : Grouping α) (member : α)
  | join (first second : Grouping α)

def Grouping.members {α : Type} : Grouping α → List α
  | single a => [a]
  | .and g a => g.members ++ [a]
  | join g h => g.members ++ h.members

inductive Question where
  | copies
  | inspection
  | sameAs (other : Name)
  | distinct (others : List Name)

inductive Condition where
  | satisfied (constraint : Name)
  | sameNodes (first second : Name)

inductive Traversal where
  | items
  | elements
deriving DecidableEq, Repr

inductive Statement where
  | derive (source target : Name) (step : Derivation)
  | ask (node : Name) (question : Question)
  | apply (node : Name) (target : Option Name) (rule : Rule)
  | constrain (node : Name) (target : Option Name) (form : Form) (site : Nat)
      (predicate : Predicate) (propagates : Bool)
  | start (node target : Name) (site : Nat) (predicate : Predicate)
  | await (future : Name) (target : Option Name)
  | otherwise (constraint : Name) (message : String) (reaction : Reaction)
  | inspect (constraint : Name)
  | resolve (constraint : Name)
  | sameOrigin (first second : Name)
  | register (node constraint : Name) (reaction : Reaction)
  | report (node : Name) (path : Option Path) (message : String) (reaction : Reaction)
  | branch (condition : Condition) (yes no : List Statement)
  | each (node element : Name) (way : Traversal) (body : List Statement)
  | together (group : Grouping Name) (member : Name) (body : List Statement)
  | nest (node rules : Name) (context : Json)
  | fail (error : String)
  | suspend
  | hang

abbrev Block := List Statement

structure RuleSet where
  root : Name
  takesContext : Bool
  block : Block

abbrev Library := List (Name × RuleSet)

end Vetting
