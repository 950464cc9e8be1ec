import Vetting.Decimal.Layout

/-! Decimal numerals, and the double nearest to each. -/

namespace Vetting.Decimal

/-- The numeral `digits * 10 ^ exponent` with its sign. It is `whole` when written with digits
alone, without a point or an exponent. -/
structure Literal where
  negative : Bool
  digits : Nat
  exponent : Int
  whole : Bool
deriving Repr, DecidableEq

def isFigure (c : Char) : Bool := '0' ≤ c && c ≤ '9'

def figures (cs : List Char) : Nat := cs.foldl (fun n c => 10 * n + (c.toNat - '0'.toNat)) 0

def splitSign (plus : Bool) : List Char → Bool × List Char
  | '-' :: cs => (true, cs)
  | '+' :: cs => if plus then (false, cs) else (false, '+' :: cs)
  | cs => (false, cs)

def Literal.exponentOf? : List Char → Option Int
  | [] => some 0
  | c :: cs =>
    let (negative, ds) := splitSign true cs
    if (c = 'e' || c = 'E') && !ds.isEmpty && ds.all isFigure then
      some (if negative then -(figures ds : Int) else figures ds)
    else none

def Literal.ofChars? (cs : List Char) : Option Literal :=
  let (negative, cs) := splitSign false cs
  let whole := cs.takeWhile isFigure
  let rest := cs.dropWhile isFigure
  if whole.isEmpty then none
  else match rest with
    | '.' :: rest =>
      let fraction := rest.takeWhile isFigure
      if fraction.isEmpty then none
      else (exponentOf? (rest.dropWhile isFigure)).map fun e =>
        ⟨negative, figures (whole ++ fraction), e - fraction.length, false⟩
    | rest => (exponentOf? rest).map fun e => ⟨negative, figures whole, e, rest.isEmpty⟩

def Literal.toInt? (l : Literal) : Option Int :=
  if l.whole then some (if l.negative then -(l.digits : Int) else l.digits) else none

/-- The double nearest to the literal. Numbers of magnitude above `10 ^ 400` or below `10 ^ -400`
lie outside the doubles in any case. -/
def Literal.toDouble (l : Literal) : Float :=
  let power := l.exponent + (Nat.toDigits 10 l.digits).length
  let magnitude : Float :=
    if l.digits = 0 || power < -400 then 0
    else if 400 < power then 1 / 0
    else Float.ofScientific l.digits (l.exponent < 0) l.exponent.natAbs
  if l.negative then -magnitude else magnitude

end Vetting.Decimal
