namespace CrossAssembler.Decimal

structure Scaled where
  digits : Nat
  exponent : Int
deriving DecidableEq, Repr

structure Binary where
  mantissa : Nat
  exponent : Int
deriving DecidableEq, Repr

def precision : Nat := 53

def leastExponent : Int := -1074

def greatestExponent : Int := 971

def upward (base : Nat) (n : Nat) (exponent : Int) : Nat :=
  n * Nat.pow base exponent.toNat

def downward (base : Nat) (exponent : Int) : Nat :=
  Nat.pow base (-exponent).toNat

def roundHalfEven (num den : Nat) : Nat :=
  let q := num / den
  let twice := 2 * (num % den)
  if twice < den ∨ (twice = den ∧ q % 2 = 0) then q else q + 1

def bitLength (n : Nat) : Nat :=
  if n = 0 then 0 else n.log2 + 1

def unitsOf (num den : Nat) (exponent : Int) : Nat :=
  roundHalfEven (num * downward 2 exponent) (den * upward 2 1 exponent)

def Binary.nearest? (num den : Nat) : Option Binary :=
  let guess : Int := (bitLength num : Int) - bitLength den - precision
  -- The quotient may have a bit more than the guess says.
  let fits := num * downward 2 guess < Nat.pow 2 precision * (den * upward 2 1 guess)
  let exponent := max (if fits then guess else guess + 1) leastExponent
  let mantissa := unitsOf num den exponent
  let rounded : Binary :=
    if mantissa < Nat.pow 2 precision then ⟨mantissa, exponent⟩
    else ⟨mantissa / 2, exponent + 1⟩
  if rounded.exponent ≤ greatestExponent then some rounded else none

def digitBound : Int := 400

def Scaled.nearest? (s : Scaled) : Option Binary :=
  let length : Int := (Nat.toDigits 10 s.digits).length
  if s.digits = 0 ∨ length + s.exponent < -digitBound then some ⟨0, leastExponent⟩
  else if digitBound < length + s.exponent then none
  else Binary.nearest? (upward 10 s.digits s.exponent) (downward 10 s.exponent)

end CrossAssembler.Decimal
