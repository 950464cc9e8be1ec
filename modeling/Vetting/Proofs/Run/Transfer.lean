import Vetting.Proofs.Run.World

/-! Carrying what is done in one run over to another. The places of the one become places of the
other, and its constraints become constraints of the other, which need not own the same entries. -/

namespace Vetting

def Misuse.placed (f : Path → Path) : Misuse → Misuse
  | .runCompleted p => .runCompleted (f p)
  | .foreignConstraint p => .foreignConstraint (f p)
  | .conflictingMessage p existing attempted => .conflictingMessage (f p) existing attempted

structure Mapping where
  source : RunId
  target : RunId
  place : Path → Path
  owns : Constraint → Bool

namespace Mapping

variable (m : Mapping)

def node (n : Node Content) : Node Content := ⟨n.value, m.place n.path, m.target⟩

def constraint (c : Constraint) : Constraint :=
  { c with path := m.place c.path, run := m.target, owned := m.owns c }

def entry (e : Entry) : Entry := { e with path := m.place e.path }

end Mapping

/-- A mapping with the collections that correspond to what the source has come to. Whatever is done
on both sides keeps the correspondence. -/
structure Transfer extends Mapping where
  corresponds : Progress → Entries → Prop
  /-- The other side may be given up where this one is not. -/
  lenient : Prop
  push : ∀ p name, place (p.push name) = (place p).push name
  fewer : ∀ {es cs ds fs}, corresponds ⟨es, cs⟩ fs → ds.Subperm cs → corresponds ⟨es, ds⟩ fs
  insert : ∀ {p fs e}, corresponds p fs → e.origin ≠ none ∨ e.message ≠ none →
    corresponds (p.insert e) (fs.insert (toMapping.entry e)).2
  declared : ∀ {p fs} satisfied path origin, corresponds p fs →
    (Constraint.declared satisfied (place path) target origin fs).1 =
        toMapping.constraint (Constraint.declared satisfied path source origin p.entries).1 ∧
      corresponds (p.add (Constraint.declared satisfied path source origin p.entries))
        (Constraint.declared satisfied (place path) target origin fs).2
  judged : ∀ {p fs} satisfied path name message, corresponds p fs →
    (Constraint.judged satisfied (place path) target name message fs).1 =
        toMapping.constraint (Constraint.judged satisfied path source name message p.entries).1 ∧
      corresponds (p.add (Constraint.judged satisfied path source name message p.entries))
        (Constraint.judged satisfied (place path) target name message fs).2
  messaged : ∀ {p fs c} message, corresponds p fs → c ∈ p.constraints → c.run = source →
    ((toMapping.constraint c).messaged message fs).1 =
        toMapping.constraint (c.messaged message p.entries).1 ∧
      corresponds ((p.drop c).add (c.messaged message p.entries))
        ((toMapping.constraint c).messaged message fs).2

theorem Transfer.node_derive (L : Transfer) (n : Node Content) (name : Option String)
    (c : Content) : L.node (n.derive name c) = (L.node n).derive name c := by
  simp only [Mapping.node, Node.derive, L.push]

end Vetting
