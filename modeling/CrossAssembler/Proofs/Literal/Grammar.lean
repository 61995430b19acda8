import CrossAssembler.Proofs.Statement.Spelling
import Mathlib.Data.List.TakeWhile
import Mathlib.Data.Nat.Digits.Defs

namespace CrossAssembler

open Text

namespace Text

variable {base n m d : Nat} {t : Text} {c : Char}

def capitalDigits : Text :=
  "0123456789ABCDEF".toList

def smallDigits : Text :=
  "0123456789abcdef".toList

def IsDigit (base : Nat) (c : Char) (d : Nat) : Prop :=
  d < base ∧ (capitalDigits[d]? = some c ∨ smallDigits[d]? = some c)

def Spells (base : Nat) (t : Text) (n : Nat) : Prop :=
  ∃ ds, List.Forall₂ (IsDigit base) t ds ∧ n = Nat.ofDigits base ds.reverse

theorem digitValue?_digits : ∀ d : Fin 16,
    capitalDigits[d.val]?.bind digitValue? = some d.val ∧
      smallDigits[d.val]?.bind digitValue? = some d.val := by
  decide

theorem digit_of_digitValue? : ∀ n : Fin 128, ∀ d ∈ digitValue? (Char.ofNat n),
    (capitalDigits[d]? = some (Char.ofNat n) ∨ smallDigits[d]? = some (Char.ofNat n)) ∧
      d.digitChar.toUpper = (Char.ofNat n).toUpper := by
  decide

theorem digitValue?_eq_some_iff :
    digitValue? c = some d ↔ capitalDigits[d]? = some c ∨ smallDigits[d]? = some c := by
  constructor
  · intro h
    have hdigit := digit_of_digitValue? ⟨c.toNat, toNat_lt_of_digitValue? h⟩ d
    rw [Char.ofNat_toNat] at hdigit
    exact (hdigit h).1
  · intro h
    have hlt : d < 16 := by
      rcases h with h | h
      · exact (List.getElem?_eq_some_iff.mp h).1
      · exact (List.getElem?_eq_some_iff.mp h).1
    obtain ⟨hcapital, hsmall⟩ := digitValue?_digits ⟨d, hlt⟩
    rcases h with h | h
    · rwa [h] at hcapital
    · rwa [h] at hsmall

theorem toUpper_of_digitValue? (h : digitValue? c = some d) :
    d.digitChar.toUpper = c.toUpper := by
  have hdigit := digit_of_digitValue? ⟨c.toNat, toNat_lt_of_digitValue? h⟩ d
  rw [Char.ofNat_toNat] at hdigit
  exact (hdigit h).2

theorem readDigits?_cons_eq_some_iff :
    readDigits? base n (c :: t) = some m ↔
      ∃ d, IsDigit base c d ∧ readDigits? base (n * base + d) t = some m := by
  simp only [readDigits?, IsDigit, ← digitValue?_eq_some_iff]
  cases digitValue? c with
  | none => simp
  | some d => by_cases hd : d < base <;> simp [hd]

theorem readDigits?_eq_some_iff :
    readDigits? base n t = some m ↔
      ∃ ds, List.Forall₂ (IsDigit base) t ds ∧
        m = n * base ^ t.length + Nat.ofDigits base ds.reverse := by
  induction t generalizing n with
  | nil => simp [readDigits?, eq_comm]
  | cons c t ih =>
      -- the first digit counts for as many places as digits follow it
      have hplace : ∀ d (ds : List Nat), ds.length = t.length →
          (n * base + d) * base ^ t.length + Nat.ofDigits base ds.reverse =
            n * base ^ (t.length + 1) + Nat.ofDigits base (d :: ds).reverse := by
        intro d ds hlength
        rw [Nat.ofDigits_reverse_cons, hlength]
        ring
      simp only [readDigits?_cons_eq_some_iff, ih, List.length_cons]
      constructor
      · rintro ⟨d, hd, ds, hds, rfl⟩
        exact ⟨d :: ds, .cons hd hds, hplace d ds hds.length_eq.symm⟩
      · rintro ⟨_, hall, rfl⟩
        cases hall with
        | cons hd hds => exact ⟨_, hd, _, hds, (hplace _ _ hds.length_eq.symm).symm⟩

theorem readDigits?_zero_eq_some_iff : readDigits? base 0 t = some n ↔ Spells base t n := by
  simp [readDigits?_eq_some_iff, Spells]

def significantDigits (t : Text) : Text :=
  if t.all (· == '0') then ['0'] else t.dropWhile (· == '0')

theorem significantDigits_concat (t : Text) (c : Char) :
    significantDigits (t ++ [c]) =
      if t.all (· == '0') then [c] else significantDigits t ++ [c] := by
  unfold significantDigits
  by_cases hzeros : t.all (· == '0') = true
  · rw [if_pos hzeros, List.dropWhile_append_of_pos (by simpa using hzeros)]
    by_cases hc : c = '0' <;> simp [hzeros, hc]
  · have hrest : t.dropWhile (· == '0') ≠ [] := by
      simpa [List.dropWhile_eq_nil_iff] using hzeros
    simp [List.dropWhile_append, hzeros, hrest]

theorem eq_zero_iff_of_readDigits? (hbase : 0 < base) (h : readDigits? base 0 t = some n) :
    n = 0 ↔ t.all (· == '0') = true := by
  have hzero : ∀ {c d}, digitValue? c = some d → (d = 0 ↔ c = '0') := by
    have hcapital : capitalDigits[0]? = some '0' := by decide
    have hsmall : smallDigits[0]? = some '0' := by decide
    have hvalue : digitValue? '0' = some 0 := by decide
    intro c d hd
    constructor
    · rintro rfl
      rw [digitValue?_eq_some_iff, hcapital, hsmall, or_self, Option.some.injEq] at hd
      exact hd.symm
    · rintro rfl
      exact Option.some.inj (hd.symm.trans hvalue)
  induction t using List.reverseRecOn generalizing n with
  | nil => simpa [readDigits?, eq_comm] using h
  | append_singleton t c ih =>
      obtain ⟨k, d, hk, hd, -, rfl⟩ := exists_of_readDigits?_concat h
      have hfront : k = 0 ↔ t.all (· == '0') = true := ih hk
      rw [List.all_append, Bool.and_eq_true, ← hfront, Nat.add_eq_zero_iff, hzero hd]
      simp [Nat.ne_of_gt hbase]

theorem numeral_of_readDigits? (hpos : 1 < base) (hne : t ≠ [])
    (h : readDigits? base 0 t = some n) :
    numeral base n = (significantDigits t).map Char.toUpper := by
  induction t using List.reverseRecOn generalizing n with
  | nil => exact absurd rfl hne
  | append_singleton t c ih =>
      obtain ⟨k, d, hk, hd, hlt, rfl⟩ := exists_of_readDigits?_concat h
      have hzeros := eq_zero_iff_of_readDigits? (Nat.lt_trans Nat.zero_lt_one hpos) hk
      have hlast : (Nat.toDigits base d).map Char.toUpper = [c.toUpper] := by
        rw [Nat.toDigits_of_lt_base hlt, List.map_singleton, toUpper_of_digitValue? hd]
      rw [significantDigits_concat]
      by_cases hk0 : k = 0
      · rw [if_pos (hzeros.mp hk0), hk0, Nat.zero_mul, Nat.zero_add, numeral, hlast]
        rfl
      · have htne : t ≠ [] := by
          rintro rfl
          exact hk0 (hzeros.mpr rfl)
        rw [if_neg fun hall => hk0 (hzeros.mpr hall), List.map_append, ← ih htne hk, numeral,
          Nat.mul_comm k, ← Nat.toDigits_append_toDigits hpos (Nat.pos_of_ne_zero hk0) hlt,
          List.map_append, hlast]
        rfl

end Text

theorem Radix.one_lt_base (r : Radix) : 1 < r.base := by
  cases r <;> decide

theorem Radix.base_le (r : Radix) : r.base ≤ 16 := by
  cases r <;> decide

namespace Literal

variable {t : Text} {l : Literal}

theorem parse?_eq_some_iff :
    parse? t = some l ↔
      ∃ digits, t = l.radix.marker :: digits ∧ digits ≠ [] ∧
        Spells l.radix.base digits l.value ∧ l.value < limit := by
  cases t with
  | nil => simp [parse?]
  | cons c digits =>
      simp only [parse?, Option.bind_eq_bind, Option.bind_eq_some_iff, Radix.ofMarker?_eq_some_iff,
        ← readDigits?_zero_eq_some_iff, List.cons.injEq]
      constructor
      · rintro ⟨r, rfl, h⟩
        split at h
        · simp at h
        · rename_i hne
          simp only [Option.bind_eq_some_iff] at h
          obtain ⟨n, hn, h⟩ := h
          split at h
          · rename_i hlt
            obtain rfl := Option.some.inj h
            exact ⟨digits, ⟨rfl, rfl⟩, by simpa using hne, hn, hlt⟩
          · simp at h
      · rintro ⟨_, ⟨rfl, rfl⟩, hne, hn, hlt⟩
        exact ⟨l.radix, rfl, by simp [hne, hn, hlt]⟩

theorem parse?_text (h : l.value < limit) : parse? l.text = some l := by
  have hread := readDigits?_numeral l.value l.radix.one_lt_base l.radix.base_le
  refine parse?_eq_some_iff.mpr ⟨_, rfl, ?_, readDigits?_zero_eq_some_iff.mp hread, h⟩
  simp [numeral, Nat.toDigits_ne_nil]

theorem text_of_parse? (h : parse? t = some l) :
    ∃ c digits, t = c :: digits ∧ l.text = c :: (significantDigits digits).map Char.toUpper := by
  obtain ⟨digits, rfl, hne, hspells, -⟩ := parse?_eq_some_iff.mp h
  refine ⟨_, digits, rfl, ?_⟩
  rw [text, numeral_of_readDigits? l.radix.one_lt_base hne
    (readDigits?_zero_eq_some_iff.mpr hspells)]

theorem parse_grammar :
    (∀ (t : Text) (l : Literal), parse? t = some l ↔
      ∃ digits, t = l.radix.marker :: digits ∧ digits ≠ [] ∧
        Spells l.radix.base digits l.value ∧ l.value < 2 ^ 64) ∧
    (∀ l : Literal, l.value < 2 ^ 64 → parse? l.text = some l) ∧
    (∀ (t : Text) (l : Literal), parse? t = some l → ∃ c digits, t = c :: digits ∧
      l.text = c :: (significantDigits digits).map Char.toUpper) ∧
    ∀ (l : Literal) (width : Nat), l.fits width = true ↔ l.value < 2 ^ width :=
  ⟨fun _ _ => parse?_eq_some_iff, fun _ => parse?_text, fun _ _ => text_of_parse?,
    fun _ _ => fits_iff⟩

theorem parse_grammar_mixedCase :
    Spells 16 "00fF".toList 255 ∧ parse? (text ⟨.hex, 255⟩) = some ⟨.hex, 255⟩ ∧
      ∃ c digits, "$00fF".toList = c :: digits ∧
        text ⟨.hex, 255⟩ = c :: (significantDigits digits).map Char.toUpper := by
  have hparse : parse? "$00fF".toList = some ⟨.hex, 255⟩ := by decide
  obtain ⟨digits, hdigits, -, hspells, -⟩ := (parse_grammar.1 _ _).mp hparse
  obtain rfl : digits = "00fF".toList := (List.cons.inj hdigits).2.symm
  exact ⟨hspells, parse_grammar.2.1 _ (by decide), parse_grammar.2.2.1 _ _ hparse⟩

-- Zeros in front do not count towards the size of a value.
example : parse? "$00FFFFFFFFFFFFFFFF".toList = some ⟨.hex, 2 ^ 64 - 1⟩ ∧
    parse? "$10000000000000000".toList = none := by
  decide

end Literal

end CrossAssembler
