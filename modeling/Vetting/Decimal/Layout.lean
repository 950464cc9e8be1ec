import Vetting.Decimal.Shortest

/-! How a number is written once its digits are known. -/

namespace Vetting.Decimal

/-- The choices of a notation. Numbers whose leading digit stands for a power of ten from `least`
to `greatest` are written out, the others with an exponent. Whole numbers that are `pointed` end in
`.0`, and exponents that are `signed` carry a plus. -/
structure Layout where
  least : Option Int
  greatest : Option Int
  pointed : Bool
  signed : Bool
  tie : Tie

namespace Layout

def bound : Layout := ⟨none, none, false, false, .upwards⟩

def inspected : Layout := ⟨some (-4), some 15, true, false, .upwards⟩

def document : Layout := ⟨some (-5), some 15, true, true, .toEven⟩

def writesOut (l : Layout) (power : Int) : Bool :=
  l.least.all (· ≤ power) && l.greatest.all (power ≤ ·)

def positional (l : Layout) (digits : List Char) (exponent : Int) : List Char :=
  let tail := if l.pointed then ['.', '0'] else []
  if 0 ≤ exponent then digits ++ List.replicate exponent.toNat '0' ++ tail
  else
    let places := (-exponent).toNat
    if places < digits.length then
      digits.take (digits.length - places) ++ '.' :: digits.drop (digits.length - places)
    else '0' :: '.' :: (List.replicate (places - digits.length) '0' ++ digits)

def scientific (l : Layout) (digits : List Char) (power : Int) : List Char :=
  let mantissa := match digits with
    | [] => []
    | [d] => [d]
    | d :: ds => d :: '.' :: ds
  let sign := if power < 0 then ['-'] else if l.signed then ['+'] else []
  mantissa ++ 'e' :: (sign ++ Nat.toDigits 10 power.natAbs)

def magnitude (l : Layout) (s : Scaled) : List Char :=
  let digits := Nat.toDigits 10 s.digits
  let power := s.exponent + digits.length - 1
  if l.writesOut power then l.positional digits s.exponent else l.scientific digits power

def withSign (negative : Bool) (text : List Char) : String :=
  String.ofList (if negative then '-' :: text else text)

def write (l : Layout) : Reading → String
  | .zero negative => withSign negative (l.magnitude ⟨0, 0⟩)
  | .finite negative b => withSign negative (l.magnitude (b.shortest l.tie))
  | .infinite negative => withSign negative ['i', 'n', 'f']
  | .notANumber => "NaN"

end Layout

end Vetting.Decimal
