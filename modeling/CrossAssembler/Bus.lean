import CrossAssembler.Text.Numeral

namespace CrossAssembler

structure Bus where
  data : Nat
  address : Nat
  seven_le_data : 7 ≤ data
  data_le : data ≤ 32
  address_pos : 1 ≤ address
  address_le : address ≤ 32
  address_le_two_data : address ≤ 2 * data
deriving DecidableEq, Repr

inductive BusError where
  | dataWidth (data : Nat)
  | addressWidth (address : Nat)
  | addressTooWide (data address : Nat)
deriving DecidableEq, Repr

def BusError.message : BusError → String
  | .dataWidth data =>
      s!"Invalid bus configuration: data bus length {data} must be between 7 and 32"
  | .addressWidth address =>
      s!"Invalid bus configuration: address bus length {address} must be between 1 and 32"
  | .addressTooWide data address =>
      s!"Invalid bus configuration: address bus length {address} " ++
        s!"does not fit in two {data}-bit words"

namespace Bus

def ofWidths (data address : Nat) : Except BusError Bus :=
  if hd : 7 ≤ data ∧ data ≤ 32 then
    if ha : 1 ≤ address ∧ address ≤ 32 then
      if h : address ≤ 2 * data then
        .ok ⟨data, address, hd.1, hd.2, ha.1, ha.2, h⟩
      else .error (.addressTooWide data address)
    else .error (.addressWidth address)
  else .error (.dataWidth data)

theorem ofWidths_self (bus : Bus) : ofWidths bus.data bus.address = .ok bus := by
  have h1 := bus.seven_le_data
  have h2 := bus.data_le
  have h3 := bus.address_pos
  have h4 := bus.address_le
  have h5 := bus.address_le_two_data
  simp [ofWidths, h1, h2, h3, h4, h5]

def wordValues (bus : Bus) : Nat :=
  Nat.pow 2 bus.data

def space (bus : Bus) : Nat :=
  Nat.pow 2 bus.address

def split (bus : Bus) (addr : Nat) : Nat × Nat :=
  (addr % bus.wordValues, addr / bus.wordValues % bus.wordValues)

def bits (bus : Bus) (word : Nat) : Text :=
  Text.paddedNumeral 2 bus.data (word % bus.wordValues)

end Bus

end CrossAssembler
