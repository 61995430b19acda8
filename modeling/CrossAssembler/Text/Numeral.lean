import CrossAssembler.Text.Blank

namespace CrossAssembler.Text

def numeral (base n : Nat) : Text :=
  (Nat.toDigits base n).map Char.toUpper

def digitValue? (c : Char) : Option Nat :=
  if '0' ≤ c ∧ c ≤ '9' then some (c.toNat - '0'.toNat)
  else if 'A' ≤ c ∧ c ≤ 'F' then some (c.toNat - 'A'.toNat + 10)
  else if 'a' ≤ c ∧ c ≤ 'f' then some (c.toNat - 'a'.toNat + 10)
  else none

def readDigits? (base : Nat) (n : Nat) : Text → Option Nat
  | [] => some n
  | c :: t =>
      match digitValue? c with
      | some d => if d < base then readDigits? base (n * base + d) t else none
      | none => none

def padStart (width : Nat) (fill : Char) (t : Text) : Text :=
  List.replicate (width - t.length) fill ++ t

def padEnd (width : Nat) (fill : Char) (t : Text) : Text :=
  t ++ List.replicate (width - t.length) fill

def paddedNumeral (base width n : Nat) : Text :=
  padStart width '0' (numeral base n)

theorem length_padStart (width : Nat) (fill : Char) (t : Text) :
    (padStart width fill t).length = max width t.length := by
  simp [padStart]; omega

end CrossAssembler.Text
