import CrossAssembler.Text.Numeral
import Mathlib.Data.List.Induction

namespace CrossAssembler.Text

variable {base : Nat}

theorem digitValue?_digitChar {d : Nat} (h : d < 16) :
    digitValue? d.digitChar.toUpper = some d := by
  have hall : ∀ d : Fin 16, digitValue? (Nat.digitChar d).toUpper = some d.val := by decide
  exact hall ⟨d, h⟩

theorem readDigits?_append (n : Nat) (t u : Text) :
    readDigits? base n (t ++ u) = (readDigits? base n t).bind (readDigits? base · u) := by
  induction t generalizing n with
  | nil => rfl
  | cons c t ih =>
      simp only [List.cons_append, readDigits?]
      split
      · split
        · exact ih _
        · rfl
      · rfl

theorem readDigits?_digit {d : Nat} (n : Nat) (hbase : base ≤ 16) (hd : d < base) :
    readDigits? base n [d.digitChar.toUpper] = some (n * base + d) := by
  simp [readDigits?, digitValue?_digitChar (Nat.lt_of_lt_of_le hd hbase), hd]

theorem readDigits?_numeral (n : Nat) (hpos : 1 < base) (hbase : base ≤ 16) :
    readDigits? base 0 (numeral base n) = some n := by
  induction n using Nat.base_induction base hpos with
  | single m hm =>
      rw [numeral, Nat.toDigits_of_lt_base hm, List.map_singleton, readDigits?_digit 0 hbase hm]
      simp
  | digit m k hk hm ih =>
      rw [numeral, ← Nat.toDigits_append_toDigits hpos hm hk, List.map_append, ← numeral,
        Nat.toDigits_of_lt_base hk, List.map_singleton, readDigits?_append, ih]
      simp only [Option.bind_some, readDigits?_digit m hbase hk, Nat.mul_comm m]

theorem readDigits?_zeros (k : Nat) (t : Text) (hpos : 0 < base) :
    readDigits? base 0 (List.replicate k '0' ++ t) = readDigits? base 0 t := by
  have hzero : digitValue? '0' = some 0 := by decide
  induction k with
  | zero => rfl
  | succ k ih => simpa [List.replicate_succ, readDigits?, hzero, hpos] using ih

theorem readDigits?_paddedNumeral (width n : Nat) (hpos : 1 < base) (hbase : base ≤ 16) :
    readDigits? base 0 (paddedNumeral base width n) = some n := by
  rw [paddedNumeral, padStart, readDigits?_zeros _ _ (Nat.lt_trans Nat.zero_lt_one hpos),
    readDigits?_numeral n hpos hbase]

theorem length_paddedNumeral {width n : Nat} (hpos : 1 < base) (hwidth : 0 < width)
    (h : n < Nat.pow base width) : (paddedNumeral base width n).length = width := by
  have hlength := (Nat.length_toDigits_le_iff hpos hwidth).mpr h
  rw [paddedNumeral, length_padStart, numeral, List.length_map]
  exact Nat.max_eq_left hlength

theorem exists_digit_of_mem {n m : Nat} {t : Text} (h : readDigits? base n t = some m) {c : Char}
    (hc : c ∈ t) : ∃ d, digitValue? c = some d ∧ d < base := by
  induction t generalizing n with
  | nil => simp at hc
  | cons first t ih =>
      simp only [readDigits?] at h
      split at h
      · rename_i d hd
        split at h
        · rename_i hlt
          rcases List.mem_cons.mp hc with rfl | hc
          · exact ⟨d, hd, hlt⟩
          · exact ih h hc
        · simp at h
      · simp at h

theorem toNat_lt_of_digitValue? {c : Char} {d : Nat} (h : digitValue? c = some d) :
    c.toNat < 128 := by
  have hle : ∀ {b : Char}, c ≤ b → c.toNat ≤ b.toNat := fun h => h
  unfold digitValue? at h
  split at h
  · rename_i hc
    exact Nat.lt_of_le_of_lt (hle hc.2) (by decide)
  · split at h
    · rename_i hc
      exact Nat.lt_of_le_of_lt (hle hc.2) (by decide)
    · split at h
      · rename_i hc
        exact Nat.lt_of_le_of_lt (hle hc.2) (by decide)
      · simp at h

def bitDigit (b : Bool) : Char :=
  if b then '1' else '0'

theorem eq_bitDigit_of_digitValue? {c : Char} {d : Nat} (h : digitValue? c = some d) (hd : d < 2) :
    c = bitDigit (d.testBit 0) := by
  unfold digitValue? at h
  split at h
  · rename_i hc
    have hle : '0'.toNat ≤ c.toNat := hc.1
    have hnat : c.toNat = '0'.toNat + d := by
      have := Option.some.inj h
      omega
    obtain rfl | rfl : d = 0 ∨ d = 1 := by omega
    · exact Char.toNat_inj.mp hnat
    · exact Char.toNat_inj.mp hnat
  · split at h
    · have := Option.some.inj h
      omega
    · split at h
      · have := Option.some.inj h
        omega
      · simp at h

theorem exists_of_readDigits?_concat {n m : Nat} {t : Text} {c : Char}
    (h : readDigits? base n (t ++ [c]) = some m) :
    ∃ k d, readDigits? base n t = some k ∧ digitValue? c = some d ∧ d < base ∧
      m = k * base + d := by
  rw [readDigits?_append, Option.bind_eq_some_iff] at h
  obtain ⟨k, hk, hlast⟩ := h
  simp only [readDigits?] at hlast
  split at hlast
  · rename_i d hd
    split at hlast
    · rename_i hlt
      exact ⟨k, d, hk, hd, hlt, (Option.some.inj hlast).symm⟩
    · simp at hlast
  · simp at hlast

theorem getElem?_of_readDigits?_two {n m : Nat} {t : Text} (h : readDigits? 2 n t = some m) {i : Nat}
    (hi : i < t.length) : t[i]? = some (bitDigit (m.testBit (t.length - 1 - i))) := by
  induction t using List.reverseRecOn generalizing m i with
  | nil => simp at hi
  | append_singleton t c ih =>
      obtain ⟨k, d, hk, hd, hlt, rfl⟩ := exists_of_readDigits?_concat h
      rw [List.length_append, List.length_singleton] at hi ⊢
      rcases Nat.lt_or_ge i t.length with hbefore | hlast
      · -- a digit before the last one is a digit of the number halved
        have hplace : t.length + 1 - 1 - i = (t.length - 1 - i) + 1 := by omega
        have hhalf : (k * 2 + d) / 2 = k := by omega
        rw [List.getElem?_append_left hbefore, ih hk hbefore, hplace, Nat.testBit_succ, hhalf]
      · obtain rfl : i = t.length := by omega
        have hlow : (k * 2 + d).testBit 0 = d.testBit 0 := by
          rw [Nat.testBit_zero, Nat.testBit_zero, Nat.mul_add_mod_self_right]
        rw [List.getElem?_concat_length, eq_bitDigit_of_digitValue? hd hlt, Nat.add_sub_cancel,
          Nat.sub_self, hlow]

end CrossAssembler.Text
