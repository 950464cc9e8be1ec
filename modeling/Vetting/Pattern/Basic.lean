import Vetting.Pattern.CharSet

/-! Patterns, and which texts they occur in. A text is read once, character by character, while the
pattern keeps marks of how far its occurrences under way have come. -/

namespace Vetting

structure Place where
  first : Bool
  last : Bool

inductive Pattern where
  | empty
  | atStart
  | atEnd
  /-- One character of a set. It is marked when the character just read was read by it. -/
  | reads (set : CharSet) (marked : Bool)
  | sequence (first second : Pattern)
  | either (first second : Pattern)
  | many (body : Pattern)
deriving Repr

namespace Pattern

def oneOf (set : CharSet) : Pattern := reads set false

def passes (here : Place) : Pattern → Bool
  | empty => true
  | atStart => here.first
  | atEnd => here.last
  | reads _ _ => false
  | sequence p q => p.passes here && q.passes here
  | either p q => p.passes here || q.passes here
  | many _ => true

/-- Whether an occurrence under way comes to its end at a place. -/
def ends (here : Place) : Pattern → Bool
  | empty => false
  | atStart => false
  | atEnd => false
  | reads _ marked => marked
  | sequence p q => q.ends here || (p.ends here && q.passes here)
  | either p q => p.ends here || q.ends here
  | many p => p.ends here

/-- Reads a character at a place; `starts` tells whether an occurrence may start there. -/
def read (here : Place) (c : Char) : Pattern → (starts : Bool) → Pattern
  | empty, _ => empty
  | atStart, _ => atStart
  | atEnd, _ => atEnd
  | reads set _, starts => reads set (starts && set.holds c)
  | sequence p q, starts =>
    sequence (p.read here c starts) (q.read here c (p.ends here || (starts && p.passes here)))
  | either p q, starts => either (p.read here c starts) (q.read here c starts)
  | many p, starts => many (p.read here c (starts || p.ends here))

def occursFrom (first : Bool) (p : Pattern) : List Char → Bool
  | [] => p.passes ⟨first, true⟩ || p.ends ⟨first, true⟩
  | c :: cs =>
    p.passes ⟨first, false⟩ || p.ends ⟨first, false⟩ ||
      (p.read ⟨first, false⟩ c true).occursFrom false cs

def occursIn (p : Pattern) (s : String) : Bool := p.occursFrom true s.toList

def times (p rest : Pattern) : Nat → Pattern
  | 0 => rest
  | n + 1 => sequence p (times p rest n)

def upTo (p : Pattern) : Nat → Pattern
  | 0 => empty
  | n + 1 => either empty (sequence p (upTo p n))

def repeated (p : Pattern) (least : Nat) (most : Option Nat) : Pattern :=
  match most with
  | none => p.times (many p) least
  | some most => p.times (p.upTo (most - least)) least

end Pattern

end Vetting
