import Vetting.Pattern.CharSet

/-! Reading sets in brackets. `[ab]` unites its items, `^` at the start asks for all others, and a
set may stand within a set. Two ampersands, hyphens or tildes combine what stands to their left
with what follows, from left to right. -/

namespace Vetting.CharSet

def escaped : Char → CharSet
  | 'd' => digits
  | 'D' => complement digits
  | 's' => blanks
  | 'S' => complement blanks
  | 'w' => words
  | 'W' => complement words
  | 'a' => single '\x07'
  | 'f' => single '\x0c'
  | 'n' => single '\n'
  | 'r' => single '\r'
  | 't' => single '\t'
  | 'v' => single '\x0b'
  | c => single c

def item? : List Char → Option (CharSet × List Char)
  | [] => none
  | ['\\'] => none
  | '\\' :: c :: rest => some (escaped c, rest)
  | c :: rest => some (single c, rest)

/-- An item, or a range. A hyphen before a bracket or another hyphen makes no range. -/
def member? (cs : List Char) : Option (CharSet × List Char) :=
  match item? cs with
  | none => none
  | some (range first last, '-' :: d :: rest) =>
    if d = ']' || d = '-' then some (range first last, '-' :: d :: rest)
    else match item? (d :: rest) with
      | some (range _ last, rest) => some (range first last, rest)
      | _ => none
  | some found => some found

/-- A set with a name, after the bracket that opens it: a colon, the name and a colon; `^` before
the name asks for all others, once cases have been put on a par. -/
def namedItem? (fold : Bool) : List Char → Option (CharSet × List Char)
  | ':' :: '^' :: cs => (bare? cs).map fun (s, rest) => (complement (s.withCase fold), rest)
  | ':' :: cs => bare? cs
  | _ => none
where
  bare? (cs : List Char) : Option (CharSet × List Char) :=
    match cs.dropWhile (· ≠ ':') with
    | ':' :: ']' :: rest => (named? (String.ofList (cs.takeWhile (· ≠ ':')))).map (·, rest)
    | _ => none

structure Opened where
  negated : Bool
  before : Option (SetOperation × CharSet)
  items : CharSet

namespace Opened

def add (o : Opened) (s : CharSet) : Opened := { o with items := o.items.union s }

def soFar (o : Opened) (fold : Bool) : CharSet :=
  match o.before with
  | none => o.items
  | some (operation, s) => combined operation (s.withCase fold) (o.items.withCase fold)

def combine (o : Opened) (fold : Bool) (operation : SetOperation) : Opened :=
  ⟨o.negated, some (operation, o.soFar fold), nothing⟩

/-- Cases are put on a par before the set is turned round. -/
def close (o : Opened) (fold : Bool) : CharSet :=
  let s := (o.soFar fold).withCase fold
  if o.negated then complement s else s

end Opened

/-- Begins a set after its bracket. Hyphens there stand for themselves, and so does a closing
bracket that is the first item. -/
def openSet (cs : List Char) : Opened × List Char :=
  let (negated, cs) := match cs with
    | '^' :: rest => (true, rest)
    | cs => (false, cs)
  let start : Opened := ⟨negated, none, nothing⟩
  match cs with
  | ']' :: rest => (start.add (single ']'), rest)
  | '-' :: _ => (start.add (single '-'), cs.dropWhile (· = '-'))
  | cs => (start, cs)

/-- Reads on to the bracket that closes the outermost set. Every round uses up a character, so the
length of the text is enough for `fuel`. -/
def readOn? : (fuel : Nat) → (fold : Bool) → Opened → List Opened → List Char →
    Option (CharSet × List Char)
  | 0, _, _, _, _ => none
  | n + 1, fold, o, outer, cs =>
    match cs with
    | '[' :: rest =>
      match namedItem? fold rest with
      | some (s, rest) => readOn? n fold (o.add s) outer rest
      | none => readOn? n fold (openSet rest).1 (o :: outer) (openSet rest).2
    | ']' :: rest =>
      match outer with
      | [] => some (o.close fold, rest)
      | p :: outer => readOn? n fold (p.add (o.close fold)) outer rest
    | '&' :: '&' :: rest => readOn? n fold (o.combine fold .intersection) outer rest
    | '-' :: '-' :: rest => readOn? n fold (o.combine fold .difference) outer rest
    | '~' :: '~' :: rest => readOn? n fold (o.combine fold .symmetricDifference) outer rest
    | cs =>
      match member? cs with
      | some (s, rest) => readOn? n fold (o.add s) outer rest
      | none => none

def ofBrackets? (fold : Bool) (cs : List Char) : Option (CharSet × List Char) :=
  readOn? cs.length fold (openSet cs).1 [] (openSet cs).2

end Vetting.CharSet
