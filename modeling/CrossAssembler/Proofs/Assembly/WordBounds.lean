import CrossAssembler.Proofs.Assembly.ImageContent
import CrossAssembler.Proofs.Assembly.Symbols
import CrossAssembler.Proofs.Image.Rendering

namespace CrossAssembler

open Outcome Section

variable {bus : Bus} {pad : Bool} {raw : Text} {a : Assembly} {labels final : Labels}

theorem Mnemonic.opcode_lt {m : Mnemonic} {mode : Mode} {op : Nat} (bus : Bus)
    (h : m.opcodes.get? mode = some op) : op < bus.wordValues := by
  have htable : ∀ m ∈ Mnemonic.all, ∀ x ∈ m.opcodes.modes, x.2 < Nat.pow 2 7 := by decide
  have hop : op < Nat.pow 2 7 := htable m (mem_all m) (mode, op) (Opcodes.mem_modes.mpr h)
  exact Nat.lt_of_lt_of_le hop (Nat.pow_le_pow_right (by decide) bus.seven_le_data)

theorem Bus.split_lt (bus : Bus) (addr : Nat) :
    (bus.split addr).1 < bus.wordValues ∧ (bus.split addr).2 < bus.wordValues :=
  ⟨Nat.mod_lt _ bus.wordValues_pos, Nat.mod_lt _ bus.wordValues_pos⟩

def Word.Fits (bus : Bus) : Word → Prop
  | .value n => n < bus.wordValues
  | .label _ _ => True

theorem Word.Fits.resolve_lt {w : Word} (h : w.Fits bus) {n : Nat}
    (hn : w.resolve bus labels = .ok n) : n < bus.wordValues := by
  cases w with
  | value m => exact Except.ok.inj hn ▸ h
  | label name half =>
      simp only [resolve] at hn
      split at hn
      · simp at hn
      · rename_i addr _
        cases half with
        | low => exact Except.ok.inj hn ▸ (bus.split_lt addr).1
        | high => exact Except.ok.inj hn ▸ (bus.split_lt addr).2

theorem InstructionEncodes.fits {m : Mnemonic} {param : Text} {words : List Word}
    (h : InstructionEncodes bus labels m param words) : ∀ w ∈ words, w.Fits bus := by
  have hopcode {mode : Mode} {op : Nat} (h : m.opcodes.get? mode = some op) :
      (Word.value op).Fits bus := Mnemonic.opcode_lt bus h
  cases h with
  | implied opcode =>
      simp only [List.forall_mem_singleton]
      exact @hopcode .implied _ opcode
  | immediate _ _ opcode fits =>
      simp only [List.forall_mem_cons]
      exact ⟨@hopcode .immediate _ opcode, Literal.fits_iff.mp fits, by simp⟩
  | zeroPage _ _ opcode fits =>
      simp only [List.forall_mem_cons]
      exact ⟨@hopcode .zeroPage _ opcode, Literal.fits_iff.mp fits, by simp⟩
  | absolute _ _ opcode =>
      simp only [List.forall_mem_cons]
      exact ⟨@hopcode .absolute _ opcode, (bus.split_lt _).1, (bus.split_lt _).2, by simp⟩
  | label _ _ opcode =>
      simp only [List.forall_mem_cons]
      exact ⟨@hopcode .absolute _ opcode, trivial, trivial, by simp⟩

theorem Row.fits {r : Row} {ws : List Word} (h : r.words bus labels = .ok ws) :
    ∀ w ∈ ws, w.Fits bus := by
  simp only [words, bind_eq_ok] at h
  obtain ⟨statement, -, hws⟩ := h
  cases statement with
  | label name =>
      obtain rfl := pure_eq_ok.mp hws
      simp
  | instruction m param => exact (encode_eq_ok_iff.mp hws).fits

theorem Listed.fits {offset : Nat} {rows : List Row} {words : List Word}
    (h : Listed bus labels offset rows words) : ∀ w ∈ words, w.Fits bus := by
  induction h with
  | nil => simp
  | cons _ emitted _ _ ih =>
      intro w hw
      rcases List.mem_append.mp hw with hw | hw
      · exact Row.fits emitted w hw
      · exact ih w hw

theorem Section.cell_lt {s : Section} (h : ∀ w ∈ s.words, w.Fits bus) {offset n : Nat}
    (hn : s.cell bus labels offset = .ok n) : n < bus.wordValues := by
  unfold cell at hn
  split at hn
  · exact Except.ok.inj hn ▸ bus.wordValues_pos
  · rename_i w hw
    exact (h w (List.mem_of_getElem? hw)).resolve_lt (mapError_eq_ok.mp hn)

theorem Image.valueAt_lt {sections : List Section} (h : ∀ s ∈ sections, ∀ w ∈ s.words, w.Fits bus)
    {addr n : Nat} (hn : valueAt bus labels sections addr = .ok n) : n < bus.wordValues := by
  unfold valueAt at hn
  split at hn
  · exact Except.ok.inj hn ▸ bus.wordValues_pos
  · rename_i s hs
    exact Section.cell_lt (h s (List.mem_of_mem_filter (List.mem_of_getLast? hs))) hn

theorem Run.word_lt (run : Run bus pad raw a) {n : Nat} (hn : n ∈ a.image.words) :
    n < bus.wordValues := by
  obtain ⟨-, -, hwords⟩ := Image.words_of_link run.linked
  obtain ⟨addr, -, hvalue⟩ := Sequence.exists_of_forall₂_of_mem hwords hn
  rw [← run.sorted] at hvalue
  refine Image.valueAt_lt (fun s hs => ?_) hvalue
  exact (run.listed (run.mem_sections_iff.mp hs)).fits

theorem assemble_words_fit (h : (assemble bus pad raw).result = .ok a) :
    (∀ w ∈ a.image.words, w ≤ Nat.pow 2 bus.data - 1) ∧
    a.image.bits.map (Text.readDigits? 2 0) = a.image.words.map some ∧
    ∀ (f : Format) (image : Image), image.bus = a.image.bus →
      (∀ w ∈ image.words, w ≤ Nat.pow 2 bus.data - 1) →
      image.words.length = a.image.words.length → image.render f = a.image.render f →
      image.words = a.image.words := by
  obtain ⟨run⟩ := assemble_eq_ok_iff.mp h
  have hbus : a.image.bus = bus := (Image.words_of_link run.linked).2.1
  have hfit : ∀ w ∈ a.image.words, w < bus.wordValues := fun w hw => run.word_lt hw
  have hvalues : ∀ w, w ≤ Nat.pow 2 bus.data - 1 ↔ w < bus.wordValues := by
    intro w
    have := bus.wordValues_pos
    rw [← Bus.wordValues]
    omega
  refine ⟨fun w hw => (hvalues w).mpr (hfit w hw), ?_, ?_⟩
  · rw [Image.bits, List.map_map]
    refine List.map_congr_left fun w hw => ?_
    rw [Function.comp_apply, Bus.readDigits?_bits, hbus, Nat.mod_eq_of_lt (hfit w hw)]
  · intro f image himage himageFit hlength hrender
    have himageFit' : ∀ w ∈ image.words, w < image.bus.wordValues := by
      intro w hw
      rw [himage, hbus]
      exact (hvalues w).mp (himageFit w hw)
    exact Image.eq_of_render_eq himage himageFit' (by rwa [himage, hbus]) f hlength hrender

theorem assemble_words_fit_sampleSource :
    ∃ a, (assemble sampleBus true sampleSource).result = .ok a ∧
      (∀ w ∈ a.image.words, w ≤ 255) ∧
      a.image.bits.map (Text.readDigits? 2 0) = a.image.words.map some := by
  obtain ⟨a, ha, -⟩ := exists_assemble_sampleSource
  exact ⟨a, ha, (assemble_words_fit ha).1, (assemble_words_fit ha).2.1⟩

end CrossAssembler
