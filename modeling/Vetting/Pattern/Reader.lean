import Vetting.Pattern.Basic
import Vetting.Pattern.SetReader

/-! Reading patterns. Parts are characters and sets, `( )` groups, `|` separates branches, and
`* + ? {m} {m,} {m,n}` repeat the part before them. -/

namespace Vetting.Pattern

inductive Token where
  | part (p : Pattern)
  | openGroup
  | closeGroup
  | bar
  | times (least : Nat) (most : Option Nat)

def decimal? (cs : List Char) : Option Nat :=
  if cs.isEmpty || !cs.all (fun c => '0' ≤ c && c ≤ '9') then none
  else some (cs.foldl (fun n c => 10 * n + (c.toNat - '0'.toNat)) 0)

def bounds? (cs : List Char) : Option Token :=
  let low := cs.takeWhile (· ≠ ',')
  match cs.dropWhile (· ≠ ',') with
  | [] => (decimal? low).map fun n => .times n (some n)
  | _ :: [] => (decimal? low).map fun n => .times n none
  | _ :: high => (decimal? low).bind fun m => (decimal? high).map fun n => .times m (some n)

def character (fold : Bool) (s : CharSet) : Token := .part (oneOf (s.withCase fold))

def notNewline : CharSet := .complement (.single '\n')

/-- A question mark after a repetition asks for fewer rounds first, which does not change what
occurs. -/
def dropPreference : List Char → List Char
  | '?' :: rest => rest
  | cs => cs

/-- Every round uses up a character, so the length of the text is enough for `fuel`. Whether cases
are told apart is settled for each open group, the innermost first; a group starts with the choice
of the one around it. -/
def tokens? : (fuel : Nat) → (folded : Bool) → (outer : List Bool) → List Char →
    Option (List Token)
  | _, _, _, [] => some []
  | 0, _, _, _ => none
  | n + 1, folded, outer, cs =>
    match cs with
    | '(' :: '?' :: 'i' :: ')' :: rest => tokens? n true outer rest
    | '(' :: '?' :: ':' :: rest => (tokens? n folded (folded :: outer) rest).map (.openGroup :: ·)
    | '(' :: rest => (tokens? n folded (folded :: outer) rest).map (.openGroup :: ·)
    | ')' :: rest =>
      (tokens? n (outer.headD folded) outer.tail rest).map (.closeGroup :: ·)
    | '|' :: rest => (tokens? n folded outer rest).map (.bar :: ·)
    | '^' :: rest => (tokens? n folded outer rest).map (.part atStart :: ·)
    | '$' :: rest => (tokens? n folded outer rest).map (.part atEnd :: ·)
    | '.' :: rest => (tokens? n folded outer rest).map (.part (oneOf notNewline) :: ·)
    | '*' :: rest => (tokens? n folded outer (dropPreference rest)).map (.times 0 none :: ·)
    | '+' :: rest => (tokens? n folded outer (dropPreference rest)).map (.times 1 none :: ·)
    | '?' :: rest => (tokens? n folded outer (dropPreference rest)).map (.times 0 (some 1) :: ·)
    | '[' :: rest =>
      (CharSet.ofBrackets? folded rest).bind fun (set, rest) =>
        (tokens? n folded outer rest).map (.part (oneOf set) :: ·)
    | '\x7b' :: rest =>
      (bounds? (rest.takeWhile (· ≠ '\x7d'))).bind fun t =>
        (tokens? n folded outer (dropPreference ((rest.dropWhile (· ≠ '\x7d')).drop 1))).map
          (t :: ·)
    | '\\' :: c :: rest => (tokens? n folded outer rest).map (character folded (.escaped c) :: ·)
    | c :: rest => (tokens? n folded outer rest).map (character folded (.single c) :: ·)
    | [] => some []

structure Group where
  branches : Option Pattern
  parts : List Pattern

namespace Group

def start : Group := ⟨none, []⟩

def branch (g : Group) : Pattern := g.parts.foldl (fun rest part => sequence part rest) empty

def pattern (g : Group) : Pattern :=
  match g.branches with
  | none => g.branch
  | some p => either p g.branch

end Group

def build : List Group → Token → Option (List Group)
  | g :: outer, .part p => some (⟨g.branches, p :: g.parts⟩ :: outer)
  | g :: outer, .bar => some (⟨some g.pattern, []⟩ :: outer)
  | gs, .openGroup => some (.start :: gs)
  | g :: h :: outer, .closeGroup => some (⟨h.branches, g.pattern :: h.parts⟩ :: outer)
  | ⟨branches, p :: parts⟩ :: outer, .times least most =>
    some (⟨branches, repeated p least most :: parts⟩ :: outer)
  | _, _ => none

def ofString? (s : String) : Option Pattern := do
  let cs := s.toList
  let ts ← tokens? cs.length false [] cs
  match ← ts.foldlM build [.start] with
  | [g] => some g.pattern
  | _ => none

end Vetting.Pattern
