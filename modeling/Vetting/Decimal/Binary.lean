/-! Binary floating-point numbers as their bits give them: a sign and `mantissa * 2 ^ exponent`. -/

namespace Vetting.Decimal

/-- A positive number `mantissa * 2 ^ exponent`. It is `narrow` below when the neighbour below it is
half as far away as the one above, which is so at the start of a binade. -/
structure Binary where
  mantissa : Nat
  exponent : Int
  narrow : Bool
deriving Repr, DecidableEq

inductive Reading where
  | zero (negative : Bool)
  | finite (negative : Bool) (magnitude : Binary)
  | infinite (negative : Bool)
  | notANumber
deriving Repr, DecidableEq

structure Interchange where
  fractionBits : Nat
  exponentBits : Nat

def Interchange.double : Interchange := ⟨52, 11⟩

def Interchange.single : Interchange := ⟨23, 8⟩

namespace Interchange

def bias (w : Interchange) : Nat := Nat.pow 2 (w.exponentBits - 1) - 1

def read (w : Interchange) (bits : Nat) : Reading :=
  let fraction := bits % Nat.pow 2 w.fractionBits
  let power := bits / Nat.pow 2 w.fractionBits % Nat.pow 2 w.exponentBits
  let negative := bits / Nat.pow 2 (w.fractionBits + w.exponentBits) % 2 == 1
  let least : Int := 1 - (w.bias : Int) - w.fractionBits
  if power = Nat.pow 2 w.exponentBits - 1 then
    if fraction = 0 then .infinite negative else .notANumber
  else if power = 0 then
    if fraction = 0 then .zero negative else .finite negative ⟨fraction, least, false⟩
  else
    .finite negative
      ⟨fraction + Nat.pow 2 w.fractionBits, least + (power - 1 : Nat), fraction = 0 && 1 < power⟩

end Interchange

def ofDouble (x : Float) : Reading := Interchange.double.read x.toBits.toNat

def ofSingle (x : Float32) : Reading := Interchange.single.read x.toBits.toNat

end Vetting.Decimal
