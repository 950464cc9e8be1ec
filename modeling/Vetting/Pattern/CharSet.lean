import Vetting.Unicode.Blank
import Vetting.Unicode.Digit
import Vetting.Unicode.Fold
import Vetting.Unicode.Word

/-! Sets of characters. Membership is asked of code points, so that the cases of a letter can be
tried as well. -/

namespace Vetting

inductive SetOperation where
  | intersection
  | difference
  | symmetricDifference
deriving DecidableEq, Repr

def SetOperation.apply : SetOperation → Bool → Bool → Bool
  | intersection, a, b => a && b
  | difference, a, b => a && !b
  | symmetricDifference, a, b => a != b

inductive CharSet where
  | nothing
  | range (first last : Char)
  | digits
  | blanks
  | words
  | complement (set : CharSet)
  | union (first second : CharSet)
  | combined (operation : SetOperation) (first second : CharSet)
  /-- The members and the other cases of letters among them. -/
  | folded (set : CharSet)
deriving Repr

namespace CharSet

def contains : CharSet → Nat → Bool
  | nothing, _ => false
  | range first last, n => first.toNat ≤ n && n ≤ last.toNat
  | digits, n => Unicode.digitRanges.contains n
  | blanks, n => Unicode.blankRanges.contains n
  | words, n => Unicode.wordRanges.contains n
  | complement s, n => !s.contains n
  | union s t, n => s.contains n || t.contains n
  | combined op s t, n => op.apply (s.contains n) (t.contains n)
  | folded s, n => s.contains n || (Unicode.caseVariants n).any fun m => s.contains m

def holds (s : CharSet) (c : Char) : Bool := s.contains c.toNat

def single (c : Char) : CharSet := range c c

def ofRanges (ranges : List (Char × Char)) : CharSet :=
  ranges.foldl (fun s (first, last) => s.union (range first last)) nothing

def named? : String → Option CharSet
  | "alnum" => some (ofRanges [('0', '9'), ('A', 'Z'), ('a', 'z')])
  | "alpha" => some (ofRanges [('A', 'Z'), ('a', 'z')])
  | "ascii" => some (range '\x00' '\x7f')
  | "blank" => some (ofRanges [('\t', '\t'), (' ', ' ')])
  | "cntrl" => some (ofRanges [('\x00', '\x1f'), ('\x7f', '\x7f')])
  | "digit" => some (range '0' '9')
  | "graph" => some (range '!' '~')
  | "lower" => some (range 'a' 'z')
  | "print" => some (range ' ' '~')
  | "punct" => some (ofRanges [('!', '/'), (':', '@'), ('[', '\x60'), ('\x7b', '~')])
  | "space" => some (ofRanges [('\t', '\r'), (' ', ' ')])
  | "upper" => some (range 'A' 'Z')
  | "word" => some (ofRanges [('0', '9'), ('A', 'Z'), ('_', '_'), ('a', 'z')])
  | "xdigit" => some (ofRanges [('0', '9'), ('A', 'F'), ('a', 'f')])
  | _ => none

def withCase (s : CharSet) (fold : Bool) : CharSet := if fold then folded s else s

end CharSet

end Vetting
