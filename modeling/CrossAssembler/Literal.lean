import CrossAssembler.Text.Numeral

namespace CrossAssembler

inductive Radix where
  | bin | dec | hex
deriving DecidableEq, Repr

namespace Radix

def base : Radix → Nat
  | .bin => 2
  | .dec => 10
  | .hex => 16

def marker : Radix → Char
  | .bin => '¬'
  | .dec => '%'
  | .hex => '$'

def ofMarker? : Char → Option Radix
  | '¬' => some .bin
  | '%' => some .dec
  | '$' => some .hex
  | _ => none

def ofBase? : Nat → Option Radix
  | 2 => some .bin
  | 10 => some .dec
  | 16 => some .hex
  | _ => none

theorem ofMarker?_eq_some_iff {c : Char} {r : Radix} : ofMarker? c = some r ↔ c = r.marker := by
  constructor
  · intro h
    unfold ofMarker? at h
    split at h <;> simp_all [marker] <;> subst h <;> rfl
  · rintro rfl
    cases r <;> rfl

end Radix

def isReserved (c : Char) : Bool :=
  c == '¬' || c == '$' || c == '%' || c == '#' || c == ':'

namespace Text

def hasMarker : Text → Bool
  | [] => false
  | c :: _ => (Radix.ofMarker? c).isSome

end Text

structure Literal where
  radix : Radix
  value : Nat
deriving DecidableEq, Repr

namespace Literal

def limit : Nat := Nat.pow 2 64

def parse? : Text → Option Literal
  | [] => none
  | c :: digits => do
      let radix ← Radix.ofMarker? c
      if digits.isEmpty then none else
      let value ← Text.readDigits? radix.base 0 digits
      if value < limit then some ⟨radix, value⟩ else none

def text (l : Literal) : Text :=
  l.radix.marker :: Text.numeral l.radix.base l.value

def fits (l : Literal) (width : Nat) : Bool :=
  l.value >>> width == 0

theorem fits_iff {l : Literal} {width : Nat} :
    l.fits width = true ↔ l.value < Nat.pow 2 width := by
  have := Nat.two_pow_pos width
  simp only [fits, Nat.shiftRight_eq_div_pow, beq_iff_eq, Nat.div_eq_zero_iff, Nat.pow_eq]
  omega

end Literal

end CrossAssembler
