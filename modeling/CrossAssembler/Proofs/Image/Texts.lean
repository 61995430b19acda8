import CrossAssembler.Proofs.Image.BitStream
import CrossAssembler.Proofs.Text.Line

namespace CrossAssembler

open Text

namespace Bus

variable {bus : Bus}

theorem bits_eq_map (bus : Bus) (w : Nat) :
    bus.bits w = ((List.range bus.data).reverse.map w.testBit).map bitDigit := by
  refine List.ext_getElem? fun i => ?_
  rcases Nat.lt_or_ge i bus.data with hi | hi
  · rw [getElem?_of_readDigits?_two (bus.readDigits?_bits w) (by rwa [length_bits]), length_bits,
      testBit_mod_wordValues, decide_eq_true (by omega), Bool.true_and, List.getElem?_map,
      List.getElem?_map, Sequence.getElem?_reverse_range hi]
    rfl
  · rw [List.getElem?_eq_none (by rwa [length_bits]), List.getElem?_eq_none (by simpa using hi)]

theorem mem_bits {w : Nat} {c : Char} (h : c ∈ bus.bits w) : c = '0' ∨ c = '1' := by
  rw [bits_eq_map, List.mem_map] at h
  obtain ⟨b, -, rfl⟩ := h
  cases b
  · exact .inl rfl
  · exact .inr rfl

end Bus

namespace Text

theorem utf8EncodeChar_of_lt {c : Char} (h : c.toNat < 128) :
    String.utf8EncodeChar c = [c.toNat.toUInt8] := by
  have hsize : c.utf8Size = 1 := by
    rw [Char.utf8Size_eq_one_iff, UInt32.le_iff_toNat_le]
    exact Nat.le_of_lt_succ h
  rw [String.utf8EncodeChar_eq_singleton hsize]
  rfl

theorem toUTF8_of_lt {t : Text} (h : ∀ c ∈ t, c.toNat < 128) :
    (String.ofList t).toUTF8.data.toList = t.map (·.toNat.toUInt8) := by
  rw [String.toUTF8_eq_toByteArray, String.toByteArray_ofList, List.utf8Encode,
    List.toList_data_toByteArray, List.map_eq_flatMap,
    List.flatMap_congr fun c hc => utf8EncodeChar_of_lt (h c hc)]

structure FileOfLines (ls : List Text) (bytes : List UInt8) : Prop where
  written : bytes = (String.ofList (ls.flatMap (· ++ ['\n']))).toUTF8.data.toList
  read : lines (ls.flatMap (· ++ ['\n'])) = ls

def Printed (l : Text) : Prop :=
  ∀ c ∈ l, 32 ≤ c.toNat ∧ c.toNat < 128

theorem fileOfLines {ls : List Text} (h : ∀ l ∈ ls, Printed l) :
    FileOfLines ls ((ls.flatMap (· ++ ['\n'])).map (·.toNat.toUInt8)) := by
  have hascii : ∀ c ∈ ls.flatMap (· ++ ['\n']), c.toNat < 128 := by
    intro c hc
    obtain ⟨l, hl, hc⟩ := List.mem_flatMap.mp hc
    rcases List.mem_append.mp hc with hc | hc
    · exact (h l hl c hc).2
    · rw [List.mem_singleton.mp hc]
      decide
  refine ⟨(toUTF8_of_lt hascii).symm, lines_flatMap_newline fun l hl => ⟨fun hc => ?_, fun hc => ?_⟩⟩
  · exact absurd (h l hl _ hc).1 (by decide)
  · exact absurd (h l hl _ hc).1 (by decide)

end Text

namespace Image

variable {image : Image}

theorem printed_of_mem_bits {line : Text} (h : line ∈ image.bits) : Printed line := by
  obtain ⟨w, -, rfl⟩ := List.mem_map.mp h
  intro c hc
  rcases Bus.mem_bits hc with rfl | rfl
  · decide
  · decide

theorem flatten_bits (image : Image) : image.bits.flatten = image.stream.map bitDigit := by
  rw [bits, stream, ← List.flatMap_def, List.map_flatMap]
  exact List.flatMap_congr fun w _ => image.bus.bits_eq_map w

theorem length_flatten_bits (image : Image) :
    image.bits.flatten.length = image.words.length * image.bus.data := by
  rw [flatten_bits, List.length_map, length_stream]

theorem fileBit_iff (image : Image) (i : Nat) :
    fileBit (image.render .bin) i = true ↔ image.bits.flatten[i]? = some '1' := by
  rw [fileBit_render_bin, flatten_bits, List.getElem?_map, List.getD_eq_getElem?_getD]
  cases image.stream[i]? with
  | none => simp
  | some b => cases b <;> simp [bitDigit]

def coeHeader : List Text :=
  ["memory_initialization_radix=2;".toList, "memory_initialization_vector=".toList]

theorem flatMap_coeHeader : coeHeader.flatMap (· ++ ['\n']) =
    "memory_initialization_radix=2;\nmemory_initialization_vector=\n".toList := by
  simp [coeHeader]

theorem coeText_eq_append (image : Image) : image.coeText =
    coeHeader.flatMap (· ++ ['\n']) ++ image.bits.flatMap (· ++ [',', '\n']) := by
  unfold coeText
  exact congrArg (· ++ image.bits.flatMap (· ++ [',', '\n'])) flatMap_coeHeader.symm

theorem coeText_eq (image : Image) :
    image.coeText = (coeHeader ++ image.bits.map (· ++ [','])).flatMap (· ++ ['\n']) := by
  have hending : ∀ line : Text, line ++ [',', '\n'] = line ++ [','] ++ ['\n'] := by simp
  rw [coeText_eq_append, List.flatMap_append, List.flatMap_map]
  simp only [hending]

theorem fileOfLines_mif (image : Image) : FileOfLines image.bits (image.render .mif) := by
  rw [render, mifText]
  exact fileOfLines fun _ => printed_of_mem_bits

theorem fileOfLines_coe (image : Image) :
    FileOfLines (coeHeader ++ image.bits.map (· ++ [','])) (image.render .coe) := by
  rw [render, coeText_eq]
  refine fileOfLines fun l hl => ?_
  rcases List.mem_append.mp hl with hl | hl
  · have hheader : ∀ l ∈ coeHeader, Printed l := by simp [coeHeader, Printed]
    exact hheader l hl
  · obtain ⟨line, hline, rfl⟩ := List.mem_map.mp hl
    intro c hc
    rcases List.mem_append.mp hc with hc | hc
    · exact printed_of_mem_bits hline c hc
    · rw [List.mem_singleton.mp hc]
      decide

theorem render_texts (image : Image) :
    (image.bits.length = image.words.length ∧
      ∀ (k : Nat) (line : Text) (w : Nat), image.bits[k]? = some line → image.words[k]? = some w →
        line.length = image.bus.data ∧ (∀ c ∈ line, c = '0' ∨ c = '1') ∧
          readDigits? 2 0 line = some (w % image.bus.wordValues)) ∧
    FileOfLines image.bits (image.render .mif) ∧
    FileOfLines ("memory_initialization_radix=2;".toList ::
      "memory_initialization_vector=".toList :: image.bits.map (· ++ [','])) (image.render .coe) ∧
    image.bits.flatten.length = image.words.length * image.bus.data ∧
    ∀ i, fileBit (image.render .bin) i = true ↔ image.bits.flatten[i]? = some '1' := by
  refine ⟨⟨List.length_map _, fun k line w hline hw => ?_⟩, image.fileOfLines_mif,
    image.fileOfLines_coe, image.length_flatten_bits, image.fileBit_iff⟩
  obtain rfl : image.bus.bits w = line := by
    rw [bits, List.getElem?_map, hw, Option.map_some] at hline
    exact Option.some.inj hline
  exact ⟨image.bus.length_bits w, fun c => Bus.mem_bits, image.bus.readDigits?_bits w⟩

end Image

end CrossAssembler
