import CrossAssembler.Decimal.Binary

namespace CrossAssembler.Decimal

namespace Binary

-- The numbers next to a binary one are a unit away, but below a power of two only half of one.
def isNarrow (x : Binary) : Bool :=
  x.mantissa == Nat.pow 2 (precision - 1) && leastExponent < x.exponent

def compareQuarters (x : Binary) (s : Scaled) (quarters : Nat) : Ordering :=
  let e := x.exponent - 2
  compare (upward 10 s.digits s.exponent * downward 2 e)
    (upward 2 quarters e * downward 10 s.exponent)

def isNearestTo (x : Binary) (s : Scaled) : Bool :=
  let bounds := x.mantissa % 2 == 0
  let low := x.compareQuarters s (4 * x.mantissa - if x.isNarrow then 1 else 2)
  let high := x.compareQuarters s (4 * x.mantissa + 2)
  (low == .gt || (bounds && low == .eq)) && (high == .lt || (bounds && high == .eq))

def inTens (x : Binary) (exponent : Int) : Nat × Nat :=
  (upward 2 x.mantissa x.exponent * downward 10 exponent,
    downward 2 x.exponent * upward 10 1 exponent)

-- The nearer of the two neighbours with an exponent that stand for the number; of two equally near
-- ones the upper.
def onGrid? (x : Binary) (exponent : Int) : Option Scaled :=
  let (num, den) := x.inTens exponent
  let below : Scaled := ⟨num / den, exponent⟩
  let above : Scaled := ⟨num / den + 1, exponent⟩
  let upper := den ≤ 2 * (num % den)
  match x.isNearestTo below, x.isNearestTo above with
  | true, true => some (if upper then above else below)
  | true, false => some below
  | false, true => some above
  | false, false => none

def topExponent (x : Binary) : Int :=
  ((Nat.toDigits 10 (upward 2 x.mantissa x.exponent)).length : Int) -
    (Nat.toDigits 10 (downward 2 x.exponent)).length + 1

def shortest (x : Binary) : Scaled :=
  let top := x.topExponent
  ((List.range 24).findSome? fun (n : Nat) => x.onGrid? (top - n)).getD ⟨0, 0⟩

end Binary

def Scaled.positional (s : Scaled) : List Char :=
  let digits := Nat.toDigits 10 s.digits ++ List.replicate s.exponent.toNat '0'
  let places := (-s.exponent).toNat
  let padded := List.replicate (places + 1 - digits.length) '0' ++ digits
  let whole := padded.take (padded.length - places)
  let part := ((padded.drop (padded.length - places)).reverse.dropWhile (· == '0')).reverse
  whole ++ ['.'] ++ (if part.isEmpty then ['0'] else part)

def Binary.text (x : Binary) : List Char :=
  if x.mantissa = 0 then ['0', '.', '0'] else x.shortest.positional

end CrossAssembler.Decimal
