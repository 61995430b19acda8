import CrossAssembler.Bus
import CrossAssembler.Section.Kind

namespace CrossAssembler

namespace Bus

theorem split_fst_add_snd_mul {bus : Bus} {addr : Nat}
    (h : addr < bus.wordValues * bus.wordValues) :
    (bus.split addr).1 + (bus.split addr).2 * bus.wordValues = addr := by
  have hhigh : addr / bus.wordValues < bus.wordValues := Nat.div_lt_of_lt_mul h
  simp only [split, Nat.mod_eq_of_lt hhigh]
  rw [Nat.mul_comm]
  exact Nat.mod_add_div addr bus.wordValues

theorem space_le (bus : Bus) : bus.space ≤ bus.wordValues * bus.wordValues := by
  have h := Nat.pow_le_pow_right (Nat.zero_lt_two) bus.address_le_two_data
  rw [Nat.two_mul, Nat.pow_add] at h
  exact h

theorem interruptEnd_le (bus : Bus) : interruptEnd ≤ bus.wordValues * bus.wordValues := by
  have hword : Nat.pow 2 7 ≤ bus.wordValues :=
    Nat.pow_le_pow_right (Nat.zero_lt_two) bus.seven_le_data
  calc interruptEnd ≤ Nat.pow 2 7 * Nat.pow 2 7 := by decide
    _ ≤ bus.wordValues * bus.wordValues := Nat.mul_le_mul hword hword

end Bus

def sampleBus : Bus :=
  ⟨8, 16, by decide, by decide, by decide, by decide, by decide⟩

end CrossAssembler
