import Vetting.Decimal.Binary

/-! The shortest decimal that reads back as a given binary number: the coarsest power of ten with a
multiple among the reals that round to the number, and of these multiples the nearest. -/

namespace Vetting.Decimal

structure Scaled where
  digits : Nat
  exponent : Int
deriving Repr, DecidableEq

inductive Tie where
  | upwards
  | toEven
deriving Repr, DecidableEq

def Tie.choose : Tie → Nat → Nat
  | .upwards, n => n + 1
  | .toEven, n => if n % 2 = 0 then n else n + 1

/-- The reals that round to a number, as fractions over one denominator. The ends belong to them
exactly when the number's mantissa is even. -/
structure Rounding where
  low : Nat
  value : Nat
  high : Nat
  denominator : Nat
  closed : Bool

def Binary.rounding (b : Binary) : Rounding :=
  let up := Nat.pow 2 (b.exponent - 2).toNat
  { low := (4 * b.mantissa - if b.narrow then 1 else 2) * up
    value := 4 * b.mantissa * up
    high := (4 * b.mantissa + 2) * up
    denominator := Nat.pow 2 (2 - b.exponent).toNat
    closed := b.mantissa % 2 == 0 }

namespace Rounding

def inUnits (r : Rounding) (t : Int) : Rounding :=
  let grow := Nat.pow 10 (-t).toNat
  { r with
    low := r.low * grow
    value := r.value * grow
    high := r.high * grow
    denominator := r.denominator * Nat.pow 10 t.toNat }

def holds (r : Rounding) (n : Nat) : Bool :=
  let p := n * r.denominator
  if r.closed then r.low ≤ p && p ≤ r.high else r.low < p && p < r.high

def nearest? (r : Rounding) (tie : Tie) : Option Nat :=
  let below := r.value / r.denominator
  let above := below + 1
  match 0 < below && r.holds below, r.holds above with
  | true, true =>
    match compare (2 * (r.value - below * r.denominator)) r.denominator with
    | .lt => some below
    | .gt => some above
    | .eq => some (tie.choose below)
  | true, false => some below
  | false, true => some above
  | false, false => none

def search (r : Rounding) (tie : Tie) : Nat → Int → Option Scaled
  | 0, _ => none
  | n + 1, t =>
    match (r.inUnits t).nearest? tie with
    | some d => some ⟨d, t⟩
    | none => r.search tie n (t - 1)

end Rounding

def Scaled.trim : Nat → Scaled → Scaled
  | 0, s => s
  | n + 1, s =>
    if s.digits % 10 = 0 && s.digits ≠ 0 then Scaled.trim n ⟨s.digits / 10, s.exponent + 1⟩ else s

/-- A power of ten above `b`, by a rational above the logarithm of two. -/
def Binary.ceiling (b : Binary) : Int :=
  ((b.mantissa.log2 + 2 : Int) + b.exponent) * 30103 / 100000 + 1

/-- A double needs seventeen digits at most, and the search starts two powers above its first. -/
def Binary.shortest (b : Binary) (tie : Tie) : Scaled :=
  match b.rounding.search tie 24 b.ceiling with
  | some s => s.trim 24
  | none => ⟨b.mantissa, 0⟩

end Vetting.Decimal
