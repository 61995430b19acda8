import CrossAssembler.Proofs.Bus
import CrossAssembler.Proofs.Image.Rendering

namespace CrossAssembler

theorem Bus.testBit_mod_wordValues (bus : Bus) (w i : Nat) :
    (w % bus.wordValues).testBit i = (decide (i < bus.data) && w.testBit i) :=
  Nat.testBit_mod_two_pow w bus.data i

namespace Image

variable {image image' : Image}

-- bytes behind the end of the file count as zero
def fileBit (bytes : List UInt8) (i : Nat) : Bool :=
  (bytes.getD (i / 8) 0).toNat.testBit (i % 8)

def unpack (width count : Nat) (bytes : List UInt8) : List Nat :=
  (List.range count).map fun k =>
    ofBits ((List.range width).map fun j => fileBit bytes (k * width + (width - 1 - j)))

theorem toNat_getD_render_bin (image : Image) (k : Nat) :
    ((image.render .bin).getD k 0).toNat = image.binBytes.getD k 0 := by
  have hlt : image.binBytes.getD k 0 < 256 := by
    rw [binBytes, getD_dropTrailingZeros]
    exact getD_pack_lt _ k
  have hbyte : (image.render .bin).getD k 0 = (image.binBytes.getD k 0).toUInt8 :=
    List.getD_map image.binBytes 0 Nat.toUInt8
  rw [hbyte, Nat.toUInt8_eq, UInt8.toNat_ofNat']
  exact Nat.mod_eq_of_lt hlt

theorem fileBit_render_bin (image : Image) (i : Nat) :
    fileBit (image.render .bin) i = image.stream.getD i false := by
  rw [fileBit, toNat_getD_render_bin, testBit_binBytes]

theorem getElem?_stream (image : Image) (i : Nat) :
    image.stream[i]? = image.words[i / image.bus.data]?.map
      (·.testBit (image.bus.data - 1 - i % image.bus.data)) := by
  have hplace := Sequence.getElem?_reverse_range (Nat.mod_lt i image.bus.data_pos)
  rw [stream, Sequence.getElem?_flatMap image.bus.data_pos (by simp)]
  cases image.words[i / image.bus.data]? with
  | none => rfl
  | some w => rw [Option.bind_some, List.getElem?_map, hplace, Option.map_some, Option.map_some]

theorem fileBit_of_getElem? {i w : Nat} (h : image.words[i / image.bus.data]? = some w) :
    fileBit (image.render .bin) i = w.testBit (image.bus.data - 1 - i % image.bus.data) := by
  rw [fileBit_render_bin, List.getD_eq_getElem?_getD, getElem?_stream, h]
  rfl

theorem fileBit_of_le {i : Nat} (h : image.words.length * image.bus.data ≤ i) :
    fileBit (image.render .bin) i = false := by
  rw [fileBit_render_bin]
  exact List.getD_eq_default _ _ (by rwa [length_stream])

theorem getLast?_render_bin (image : Image) : (image.render .bin).getLast? ≠ some 0 := by
  intro h
  rw [render, List.getLast?_map, Option.map_eq_some_iff] at h
  obtain ⟨byte, hlast, hzero⟩ := h
  have hbyte : byte = 0 :=
    eq_of_toUInt8_eq (lt_of_mem_binBytes (List.mem_of_getLast? hlast)) (by decide) hzero
  rw [hbyte] at hlast
  exact getLast?_dropTrailingZeros _ hlast

theorem unpack_render_bin (image : Image) :
    unpack image.bus.data image.words.length (image.render .bin) =
      image.words.map (· % image.bus.wordValues) := by
  refine List.ext_getElem? fun k => ?_
  rw [unpack, List.getElem?_map, List.getElem?_map]
  rcases Nat.lt_or_ge k image.words.length with hk | hk
  · have hword : image.words[k]? = some image.words[k] := List.getElem?_eq_getElem hk
    rw [List.getElem?_range hk, hword, Option.map_some, Option.map_some, Option.some.injEq]
    refine Nat.eq_of_testBit_eq fun j => ?_
    rw [testBit_ofBits, Bus.testBit_mod_wordValues]
    rcases Nat.lt_or_ge j image.bus.data with hj | hj
    · -- bit `j` of word `k` stands `j` places before the end of the word in the stream
      have hlt : image.bus.data - 1 - j < image.bus.data := by omega
      have hdiv : (k * image.bus.data + (image.bus.data - 1 - j)) / image.bus.data = k := by
        rw [Nat.mul_comm, Nat.mul_add_div image.bus.data_pos, Nat.div_eq_of_lt hlt, Nat.add_zero]
      have hmod : (k * image.bus.data + (image.bus.data - 1 - j)) % image.bus.data =
          image.bus.data - 1 - j := by
        rw [Nat.add_comm, Nat.add_mul_mod_self_right, Nat.mod_eq_of_lt hlt]
      have hplace : image.bus.data - 1 - (image.bus.data - 1 - j) = j := by omega
      rw [List.getD_eq_getElem?_getD, List.getElem?_map, List.getElem?_range hj, Option.map_some,
        Option.getD_some, fileBit_of_getElem? (by rw [hdiv]; exact hword), hmod, hplace,
        decide_eq_true hj, Bool.true_and]
    · rw [List.getD_eq_default _ _ (by simpa using hj), decide_eq_false (Nat.not_lt.mpr hj),
        Bool.false_and]
  · rw [List.getElem?_eq_none hk, List.getElem?_eq_none (by rwa [List.length_range])]
    rfl

theorem unpack_render_bin_of_lt {bus : Bus} {words : List Nat}
    (hfit : ∀ w ∈ words, w < bus.wordValues) (n : Nat) :
    unpack bus.data (words.length + n) (render ⟨bus, words⟩ .bin) =
      words ++ List.replicate n 0 := by
  have hread := unpack_render_bin ⟨bus, words ++ List.replicate n 0⟩
  rw [render_bin_append_zeros, List.length_append, List.length_replicate] at hread
  have hkept : ∀ w ∈ words ++ List.replicate n 0, w % bus.wordValues = id w := by
    intro w hw
    apply Nat.mod_eq_of_lt
    rcases List.mem_append.mp hw with hw | hw
    · exact hfit w hw
    · rw [List.eq_of_mem_replicate hw]
      exact bus.wordValues_pos
  rw [hread, List.map_congr_left hkept, List.map_id]

theorem render_bin_eq_iff (hbus : image'.bus = image.bus)
    (hfit : ∀ w ∈ image.words, w < image.bus.wordValues)
    (hfit' : ∀ w ∈ image'.words, w < image.bus.wordValues) :
    image.render .bin = image'.render .bin ↔
      ∃ m n, image.words ++ List.replicate m 0 = image'.words ++ List.replicate n 0 := by
  obtain ⟨bus, words⟩ := image
  obtain ⟨_, words'⟩ := image'
  cases hbus
  constructor
  · intro h
    -- read as many words as both have together
    refine ⟨words'.length, words.length, ?_⟩
    rw [← unpack_render_bin_of_lt hfit, ← unpack_render_bin_of_lt hfit', h, Nat.add_comm]
  · rintro ⟨m, n, h⟩
    rw [← render_bin_append_zeros bus words m, ← render_bin_append_zeros bus words' n]
    exact congrArg (fun words => render ⟨bus, words⟩ .bin) h

theorem render_bin_stream (image : Image) :
    (∀ i < image.words.length * image.bus.data, fileBit (image.render .bin) i =
      (image.words.getD (i / image.bus.data) 0).testBit
        (image.bus.data - 1 - i % image.bus.data)) ∧
    (∀ i, image.words.length * image.bus.data ≤ i → fileBit (image.render .bin) i = false) ∧
    (image.render .bin).getLast? ≠ some 0 ∧
    unpack image.bus.data image.words.length (image.render .bin) =
      image.words.map (· % image.bus.wordValues) ∧
    ∀ image' : Image, image'.bus = image.bus →
      (∀ w ∈ image.words, w < image.bus.wordValues) →
      (∀ w ∈ image'.words, w < image.bus.wordValues) →
        (image.render .bin = image'.render .bin ↔
          ∃ m n, image.words ++ List.replicate m 0 = image'.words ++ List.replicate n 0) := by
  refine ⟨fun i hi => ?_, fun i => fileBit_of_le, image.getLast?_render_bin,
    image.unpack_render_bin, fun image' => render_bin_eq_iff⟩
  have hlt : i / image.bus.data < image.words.length := Nat.div_lt_of_lt_mul (by rwa [Nat.mul_comm])
  rw [List.getD_eq_getElem _ 0 hlt]
  exact fileBit_of_getElem? (List.getElem?_eq_getElem hlt)

def narrowBus : Bus :=
  ⟨7, 14, by decide, by decide, by decide, by decide, by decide⟩

-- words of seven bits straddle the bytes
theorem render_bin_stream_narrowBus :
    (∀ w ∈ [60, 1], w < narrowBus.wordValues) ∧ (∀ w ∈ [60, 1, 0], w < narrowBus.wordValues) ∧
      render ⟨narrowBus, [60, 1]⟩ .bin = render ⟨narrowBus, [60, 1, 0]⟩ .bin ∧
      unpack 7 2 (render ⟨narrowBus, [60, 1]⟩ .bin) = [60, 1] := by
  have hfit : ∀ w ∈ [60, 1], w < narrowBus.wordValues := by decide
  have hfit' : ∀ w ∈ [60, 1, 0], w < narrowBus.wordValues := by decide
  obtain ⟨-, -, -, hread, hequal⟩ := render_bin_stream ⟨narrowBus, [60, 1]⟩
  exact ⟨hfit, hfit', (hequal ⟨narrowBus, [60, 1, 0]⟩ rfl hfit hfit').mpr ⟨1, 0, rfl⟩, hread⟩

end Image

end CrossAssembler
