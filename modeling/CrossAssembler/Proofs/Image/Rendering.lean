import CrossAssembler.Image.Format
import CrossAssembler.Proofs.Sequence
import CrossAssembler.Proofs.Text.Numeral
import Mathlib.Data.List.GetD
import Mathlib.Data.List.TakeWhile

namespace CrossAssembler

open Text

namespace Bus

variable {bus : Bus} {w w' : Nat}

theorem wordValues_pos (bus : Bus) : 0 < bus.wordValues :=
  Nat.two_pow_pos bus.data

theorem data_pos (bus : Bus) : 0 < bus.data := by
  have := bus.seven_le_data
  omega

theorem length_bits (bus : Bus) (w : Nat) : (bus.bits w).length = bus.data :=
  length_paddedNumeral (by decide) bus.data_pos (Nat.mod_lt w bus.wordValues_pos)

theorem readDigits?_bits (bus : Bus) (w : Nat) :
    readDigits? 2 0 (bus.bits w) = some (w % bus.wordValues) :=
  readDigits?_paddedNumeral bus.data _ (by decide) (by decide)

theorem eq_of_bits_eq (hw : w < bus.wordValues) (hw' : w' < bus.wordValues)
    (h : bus.bits w = bus.bits w') : w = w' := by
  have hread := congrArg (readDigits? 2 0) h
  rw [readDigits?_bits, readDigits?_bits, Nat.mod_eq_of_lt hw, Nat.mod_eq_of_lt hw'] at hread
  exact Option.some.inj hread

theorem toNat_lt_of_mem_bits {c : Char} (h : c ∈ bus.bits w) : c.toNat < 256 := by
  obtain ⟨d, hd, -⟩ := exists_digit_of_mem (readDigits?_bits bus w) h
  exact Nat.lt_trans (toNat_lt_of_digitValue? hd) (by decide)

theorem eq_of_testBit_eq (hw : w < bus.wordValues) (hw' : w' < bus.wordValues)
    (h : ∀ i < bus.data, w.testBit i = w'.testBit i) : w = w' := by
  apply Nat.eq_of_testBit_eq
  intro i
  rcases Nat.lt_or_ge i bus.data with hi | hi
  · exact h i hi
  · have hpow : bus.wordValues ≤ Nat.pow 2 i := Nat.pow_le_pow_right (by decide) hi
    rw [Nat.testBit_lt_two_pow (Nat.lt_of_lt_of_le hw hpow),
      Nat.testBit_lt_two_pow (Nat.lt_of_lt_of_le hw' hpow)]

end Bus

namespace Image

variable {image image' : Image}

theorem testBit_ofBits (bits : List Bool) (i : Nat) : (ofBits bits).testBit i = bits.getD i false := by
  induction bits generalizing i with
  | nil => simp [ofBits]
  | cons b bits ih =>
      cases i with
      | zero => cases b <;> simp [ofBits, Nat.testBit_zero]
      | succ i =>
          rw [List.getD_cons_succ, ← ih, ofBits, Nat.testBit_succ, Nat.add_mul_div_left _ _ (by decide),
            Nat.div_eq_of_lt (by cases b <;> decide), Nat.zero_add]

theorem ofBits_lt (bits : List Bool) : ofBits bits < Nat.pow 2 bits.length := by
  induction bits with
  | nil => decide
  | cons b bits ih =>
      have hb : b.toNat ≤ 1 := Bool.toNat_le b
      rw [ofBits, List.length_cons, Nat.pow_eq, Nat.pow_succ]
      rw [Nat.pow_eq] at ih
      omega

theorem pack_induction {motive : List Bool → Prop} (empty : motive [])
    (byte : ∀ b bs, motive ((b :: bs).drop 8) → motive (b :: bs)) (bits : List Bool) :
    motive bits := by
  induction hn : bits.length using Nat.strong_induction_on generalizing bits with
  | _ n ih =>
      cases bits with
      | nil => exact empty
      | cons b bs =>
          refine byte b bs (ih _ ?_ _ rfl)
          rw [List.length_drop]
          rw [List.length_cons] at hn ⊢
          omega

theorem packOnto_eq_append (done : List Nat) (bits : List Bool) :
    packOnto done bits = done.reverse ++ pack bits := by
  induction bits using pack_induction generalizing done with
  | empty => simp [pack, packOnto]
  | byte b bs ih =>
      rw [pack, packOnto, packOnto, ih, ih [_]]
      simp

theorem pack_cons (b : Bool) (bs : List Bool) :
    pack (b :: bs) = ofBits ((b :: bs).take 8) :: pack ((b :: bs).drop 8) := by
  rw [pack, packOnto, packOnto_eq_append]
  rfl

theorem testBit_pack (bits : List Bool) (i : Nat) :
    ((pack bits).getD (i / 8) 0).testBit (i % 8) = bits.getD i false := by
  induction bits using pack_induction generalizing i with
  | empty => simp [pack, packOnto]
  | byte b bs ih =>
      rw [pack_cons]
      rcases Nat.lt_or_ge i 8 with hi | hi
      · rw [Nat.div_eq_of_lt hi, Nat.mod_eq_of_lt hi, List.getD_cons_zero, testBit_ofBits,
          List.getD_eq_getElem?_getD, List.getD_eq_getElem?_getD, List.getElem?_take_of_lt hi]
      · obtain ⟨j, rfl⟩ := Nat.exists_eq_add_of_le hi
        rw [Nat.add_comm 8 j, Nat.add_div_right j (by decide), Nat.add_mod_right,
          List.getD_cons_succ, ih j, List.getD_eq_getElem?_getD, List.getD_eq_getElem?_getD,
          List.getElem?_drop, Nat.add_comm 8 j]

theorem lt_of_mem_pack {bits : List Bool} {byte : Nat} (h : byte ∈ pack bits) : byte < 256 := by
  induction bits using pack_induction with
  | empty => simp [pack, packOnto] at h
  | byte b bs ih =>
      rw [pack_cons] at h
      rcases List.mem_cons.mp h with rfl | h
      · have hlength : ((b :: bs).take 8).length ≤ 8 := List.length_take_le 8 _
        exact Nat.lt_of_lt_of_le (ofBits_lt _) (Nat.pow_le_pow_right (by decide) hlength)
      · exact ih h

theorem getD_pack_lt (bits : List Bool) (i : Nat) : (pack bits).getD i 0 < 256 := by
  rcases Nat.lt_or_ge i (pack bits).length with hi | hi
  · rw [List.getD_eq_getElem _ 0 hi]
    exact lt_of_mem_pack (List.getElem_mem hi)
  · rw [List.getD_eq_default _ 0 hi]
    decide

theorem exists_dropTrailingZeros_append (bytes : List Nat) :
    ∃ k, bytes = dropTrailingZeros bytes ++ List.replicate k 0 := by
  refine ⟨(bytes.reverse.takeWhile (· == 0)).length, ?_⟩
  have hzeros : (bytes.reverse.takeWhile (· == 0)).reverse =
      List.replicate (bytes.reverse.takeWhile (· == 0)).length 0 := by
    rw [List.eq_replicate_iff]
    refine ⟨List.length_reverse, fun byte hbyte => ?_⟩
    simpa using List.mem_takeWhile_imp (List.mem_reverse.mp hbyte)
  rw [← hzeros]
  exact Sequence.eq_append_trailing (· == 0) bytes

theorem getD_dropTrailingZeros (bytes : List Nat) (i : Nat) :
    (dropTrailingZeros bytes).getD i 0 = bytes.getD i 0 := by
  obtain ⟨k, hk⟩ := exists_dropTrailingZeros_append bytes
  conv_rhs => rw [hk]
  simp only [List.getD_eq_getElem?_getD, List.getElem?_append, List.getElem?_replicate]
  split
  · rfl
  · rename_i hlt
    rw [List.getElem?_eq_none (Nat.not_lt.mp hlt)]
    split <;> rfl

theorem lt_of_mem_binBytes {byte : Nat} (h : byte ∈ image.binBytes) : byte < 256 := by
  obtain ⟨k, hk⟩ := exists_dropTrailingZeros_append (pack image.stream)
  have hmem : byte ∈ pack image.stream := by
    rw [hk]
    exact List.mem_append_left _ h
  exact lt_of_mem_pack hmem

theorem testBit_binBytes (image : Image) (i : Nat) :
    (image.binBytes.getD (i / 8) 0).testBit (i % 8) = image.stream.getD i false := by
  rw [binBytes, getD_dropTrailingZeros, testBit_pack]

theorem length_stream (image : Image) :
    image.stream.length = image.words.length * image.bus.data := by
  simp [stream, List.length_flatMap]

theorem getD_pack_congr {bits bits' : List Bool} (h : ∀ i, bits.getD i false = bits'.getD i false)
    (i : Nat) : (pack bits).getD i 0 = (pack bits').getD i 0 := by
  apply Nat.eq_of_testBit_eq
  intro j
  rcases Nat.lt_or_ge j 8 with hj | hj
  · have hbit := (testBit_pack bits (8 * i + j)).trans
      ((h _).trans (testBit_pack bits' (8 * i + j)).symm)
    rwa [Nat.mul_add_div (by decide), Nat.div_eq_of_lt hj, Nat.mul_add_mod, Nat.mod_eq_of_lt hj,
      Nat.add_zero] at hbit
  · have hpow : 2 ^ 8 ≤ 2 ^ j := Nat.pow_le_pow_right (by decide) hj
    rw [Nat.testBit_lt_two_pow (Nat.lt_of_lt_of_le (getD_pack_lt bits i) hpow),
      Nat.testBit_lt_two_pow (Nat.lt_of_lt_of_le (getD_pack_lt bits' i) hpow)]

theorem getLast?_dropTrailingZeros (bytes : List Nat) :
    (dropTrailingZeros bytes).getLast? ≠ some 0 := by
  intro h
  rw [dropTrailingZeros, List.getLast?_reverse] at h
  have := List.head?_dropWhile_not (· == 0) bytes.reverse
  simp [h] at this

theorem length_le_of_getD_eq {bytes bytes' : List Nat} (h : ∀ i, bytes.getD i 0 = bytes'.getD i 0)
    (hlast : bytes.getLast? ≠ some 0) : bytes.length ≤ bytes'.length := by
  by_contra hlt
  have hbyte := h (bytes.length - 1)
  rw [List.getD_eq_default bytes' 0 (by omega), List.getD_eq_getElem bytes 0 (by omega)] at hbyte
  apply hlast
  rw [List.getLast?_eq_getElem?, List.getElem?_eq_getElem (by omega), hbyte]

theorem dropTrailingZeros_congr {bytes bytes' : List Nat}
    (h : ∀ i, bytes.getD i 0 = bytes'.getD i 0) :
    dropTrailingZeros bytes = dropTrailingZeros bytes' := by
  have hsame : ∀ i, (dropTrailingZeros bytes).getD i 0 = (dropTrailingZeros bytes').getD i 0 := by
    intro i
    rw [getD_dropTrailingZeros, getD_dropTrailingZeros, h]
  have hlength : (dropTrailingZeros bytes).length = (dropTrailingZeros bytes').length :=
    Nat.le_antisymm (length_le_of_getD_eq hsame (getLast?_dropTrailingZeros bytes))
      (length_le_of_getD_eq (fun i => (hsame i).symm) (getLast?_dropTrailingZeros bytes'))
  refine List.ext_getElem hlength fun i hi hi' => ?_
  have := hsame i
  rwa [List.getD_eq_getElem _ 0 hi, List.getD_eq_getElem _ 0 hi'] at this

theorem stream_append_zeros (bus : Bus) (words : List Nat) (n : Nat) :
    stream ⟨bus, words ++ List.replicate n 0⟩ =
      stream ⟨bus, words⟩ ++ List.replicate (n * bus.data) false := by
  have hword : (List.range bus.data).reverse.map (Nat.testBit 0) =
      List.replicate bus.data false := by
    rw [List.eq_replicate_iff]
    exact ⟨by simp, by simp⟩
  simp [stream, List.flatMap_replicate, -List.map_reverse, hword]

theorem binBytes_append_zeros (bus : Bus) (words : List Nat) (n : Nat) :
    binBytes ⟨bus, words ++ List.replicate n 0⟩ = binBytes ⟨bus, words⟩ := by
  refine dropTrailingZeros_congr (getD_pack_congr fun i => ?_)
  rw [stream_append_zeros]
  rcases Nat.lt_or_ge i (stream ⟨bus, words⟩).length with hi | hi
  · exact List.getD_append _ _ _ _ hi
  · rw [List.getD_append_right _ _ _ _ hi, List.getD_eq_default _ _ hi,
      List.getD_eq_getElem?_getD, List.getElem?_getD_replicate_default_eq]

theorem render_bin_append_zeros (bus : Bus) (words : List Nat) (n : Nat) :
    render ⟨bus, words ++ List.replicate n 0⟩ .bin = render ⟨bus, words⟩ .bin := by
  simp only [render, binBytes_append_zeros]

theorem toNat_lt_of_mem_lines {ending : Text} (hending : ending.all (·.toNat < 256) = true) {c : Char}
    (h : c ∈ image.bits.flatMap (· ++ ending)) : c.toNat < 256 := by
  obtain ⟨_, hbits, hc⟩ := List.mem_flatMap.mp h
  obtain ⟨w, -, rfl⟩ := List.mem_map.mp hbits
  rcases List.mem_append.mp hc with hc | hc
  · exact Bus.toNat_lt_of_mem_bits hc
  · exact of_decide_eq_true (List.all_eq_true.mp hending c hc)

theorem toNat_lt_of_mem_mifText {c : Char} (h : c ∈ image.mifText) : c.toNat < 256 :=
  toNat_lt_of_mem_lines (by decide) h

theorem toNat_lt_of_mem_coeText {c : Char} (h : c ∈ image.coeText) : c.toNat < 256 := by
  rcases List.mem_append.mp h with hc | hc
  · have hheader : "memory_initialization_radix=2;\nmemory_initialization_vector=\n".toList.all
        (·.toNat < 256) = true := by decide +kernel
    exact of_decide_eq_true (List.all_eq_true.mp hheader c hc)
  · exact toNat_lt_of_mem_lines (by decide) hc

theorem eq_of_toUInt8_eq {m n : Nat} (hm : m < 256) (hn : n < 256)
    (h : m.toUInt8 = n.toUInt8) : m = n := by
  have := congrArg UInt8.toNat h
  simpa [Nat.mod_eq_of_lt hm, Nat.mod_eq_of_lt hn] using this

theorem eq_of_ascii_eq {t u : Text} (ht : ∀ c ∈ t, c.toNat < 256) (hu : ∀ c ∈ u, c.toNat < 256)
    (h : t.map (·.toNat.toUInt8) = u.map (·.toNat.toUInt8)) : t = u := by
  refine Sequence.eq_of_map_eq ?_ h
  intro c hc d hd hcd
  exact Char.toNat_inj.mp (eq_of_toUInt8_eq (ht c hc) (hu d hd) hcd)

section Recovery

variable (hbus : image.bus = image'.bus) (hfit : ∀ w ∈ image.words, w < image.bus.wordValues)
  (hfit' : ∀ w ∈ image'.words, w < image.bus.wordValues)

include hbus hfit hfit'

theorem eq_of_stream_eq (h : image.stream = image'.stream) : image.words = image'.words := by
  unfold stream at h
  rw [← hbus] at h
  refine Sequence.eq_of_flatMap_eq image.bus.data_pos (fun w => by simp) ?_ h
  intro w hw w' hw' hbits
  refine Bus.eq_of_testBit_eq (hfit w hw) (hfit' w' hw') fun i hi => ?_
  exact List.map_inj_left.mp hbits i (by simpa using hi)

theorem eq_of_lines_eq (ending : Text) (h : image.bits.flatMap (· ++ ending) =
    image'.bits.flatMap (· ++ ending)) : image.words = image'.words := by
  simp only [Image.bits, List.flatMap_map, ← hbus] at h
  refine Sequence.eq_of_flatMap_eq (Nat.add_pos_left image.bus.data_pos ending.length)
    (fun w => by rw [List.length_append, Bus.length_bits]) ?_ h
  intro w hw w' hw' hbits
  exact Bus.eq_of_bits_eq (hfit w hw) (hfit' w' hw') (List.append_cancel_right hbits)

theorem eq_of_render_eq (f : Format) (hlength : image.words.length = image'.words.length)
    (h : image.render f = image'.render f) : image.words = image'.words := by
  cases f with
  | bin =>
      have hbytes : image.binBytes = image'.binBytes := by
        refine Sequence.eq_of_map_eq ?_ h
        intro byte hbyte byte' hbyte' heq
        exact eq_of_toUInt8_eq (lt_of_mem_binBytes hbyte) (lt_of_mem_binBytes hbyte') heq
      refine eq_of_stream_eq hbus hfit hfit' (List.ext_getElem ?_ fun i hi hi' => ?_)
      · rw [length_stream, length_stream, hbus, hlength]
      · have := testBit_binBytes image i
        rw [hbytes, testBit_binBytes image' i] at this
        simp only [List.getD_eq_getElem?_getD, List.getElem?_eq_getElem hi,
          List.getElem?_eq_getElem hi', Option.getD_some] at this
        exact this.symm
  | coe =>
      have htext : image.coeText = image'.coeText :=
        eq_of_ascii_eq (fun _ => toNat_lt_of_mem_coeText) (fun _ => toNat_lt_of_mem_coeText) h
      exact eq_of_lines_eq hbus hfit hfit' [',', '\n'] (List.append_cancel_left htext)
  | mif =>
      have htext : image.mifText = image'.mifText :=
        eq_of_ascii_eq (fun _ => toNat_lt_of_mem_mifText) (fun _ => toNat_lt_of_mem_mifText) h
      exact eq_of_lines_eq hbus hfit hfit' ['\n'] htext

end Recovery

end Image

end CrossAssembler
