import CrossAssembler.Statement
import CrossAssembler.Proofs.Outcome

namespace CrossAssembler

open Outcome

variable {bus : Bus} {labels labels' : Labels} {m : Mnemonic} {param : Text}

namespace Operand

theorem parse_nil : parse m [] labels = .ok .absent := rfl

theorem eq_of_parse_eq_label {name : Text} (h : parse m param labels = .ok (.label name)) :
    name = param ∧ labels.constant? param = none := by
  unfold parse at h
  split at h
  · simp at h
  · simp only [bind_eq_ok] at h
    obtain ⟨l, -, h⟩ := h
    cases l <;> simp at h
  · simp only [bind_eq_ok] at h
    obtain ⟨l, hl, h⟩ := h
    cases l with
    | some l => simp at h
    | none =>
        have hname : param = name := by simpa using h
        refine ⟨hname.symm, ?_⟩
        unfold literal? at hl
        split at hl
        · simp at hl
        · assumption

end Operand

inductive InstructionEncodes (bus : Bus) (labels : Labels) (m : Mnemonic) :
    Text → List Word → Prop
  | implied {op : Nat} (opcode : m.opcodes.implied = some op) :
      InstructionEncodes bus labels m [] [.value op]
  | immediate {param : Text} {op : Nat} {l : Literal} (operand : m.opcodes.implied = none)
      (parsed : Operand.parse m param labels = .ok (.immediate l))
      (opcode : m.opcodes.immediate = some op) (fits : l.fits bus.data) :
      InstructionEncodes bus labels m param [.value op, .value l.value]
  | zeroPage {param : Text} {op : Nat} {l : Literal} (operand : m.opcodes.implied = none)
      (parsed : Operand.parse m param labels = .ok (.direct l))
      (opcode : m.opcodes.zeroPage = some op) (fits : l.fits bus.data) :
      InstructionEncodes bus labels m param [.value op, .value l.value]
  | absolute {param : Text} {op : Nat} {l : Literal} (operand : m.opcodes.implied = none)
      (parsed : Operand.parse m param labels = .ok (.direct l))
      (opcode : m.opcodes.absolute = some op)
      (far : l.fits bus.data = false ∨ m.opcodes.zeroPage = none) (fits : l.fits bus.address) :
      InstructionEncodes bus labels m param
        [.value op, .value (bus.split l.value).1, .value (bus.split l.value).2]
  | label {param : Text} {op : Nat} (operand : m.opcodes.implied = none)
      (parsed : Operand.parse m param labels = .ok (.label param))
      (opcode : m.opcodes.absolute = some op) (jumps : m.takesLabel)
      (named : checkName param = .ok ()) :
      InstructionEncodes bus labels m param
        [.value op, .label param .low, .label param .high]

theorem opcode_eq_ok {slot : Option Nat} {f : Fault} {w : Word} :
    (match slot with
      | some op => .ok (.value op)
      | none => .error f : Except Fault Word) = .ok w ↔ ∃ op, slot = some op ∧ .value op = w := by
  cases slot <;> simp

theorem encode_eq_ok_iff {words : List Word} :
    encode m param bus labels = .ok words ↔ InstructionEncodes bus labels m param words := by
  constructor
  · intro h
    unfold encode at h
    cases hop : m.opcodes.implied with
    | some op =>
        simp only [hop] at h
        split at h
        · rename_i hparam
          obtain rfl : param = [] := by simpa using hparam
          obtain rfl := Except.ok.inj h
          exact .implied hop
        · simp at h
    | none =>
        simp only [hop, bind_eq_ok] at h
        obtain ⟨operand, hparse, h⟩ := h
        cases operand with
        | absent => simp at h
        | immediate l =>
            simp only [Opcodes.get?, bind_eq_ok] at h
            obtain ⟨_, hslot, h⟩ := h
            obtain ⟨op, hop', rfl⟩ := opcode_eq_ok.mp hslot
            split at h
            · rename_i hfits
              obtain rfl := pure_eq_ok.mp h
              exact .immediate hop hparse hop' hfits
            · simp at h
        | direct l =>
            simp only [Opcodes.get?] at h
            split at h
            · rename_i hnear
              simp only [bind_eq_ok, pure_eq_ok] at h
              obtain ⟨_, hslot, rfl⟩ := h
              obtain ⟨op, hop', rfl⟩ := opcode_eq_ok.mp hslot
              exact .zeroPage hop hparse hop' (Bool.and_eq_true_iff.mp hnear).1
            · rename_i hfar
              split at h
              · rename_i hfits
                simp only [bind_eq_ok, pure_eq_ok] at h
                obtain ⟨_, hslot, rfl⟩ := h
                obtain ⟨op, hop', rfl⟩ := opcode_eq_ok.mp hslot
                refine .absolute hop hparse hop' ?_ hfits
                cases hnear : l.fits bus.data with
                | false => exact .inl rfl
                | true => exact .inr (by simpa [hnear] using hfar)
              · simp at h
        | label name =>
            obtain ⟨rfl, -⟩ := Operand.eq_of_parse_eq_label hparse
            simp only [Opcodes.get?] at h
            split at h
            · rename_i hjumps
              simp only [bind_eq_ok, pure_eq_ok] at h
              obtain ⟨_, hnamed, _, hslot, rfl⟩ := h
              obtain ⟨op, hop', rfl⟩ := opcode_eq_ok.mp hslot
              exact .label hop hparse hop' hjumps hnamed
            · simp at h
  · intro h
    cases h with
    | implied opcode => simp [encode, opcode]
    | immediate operand parsed opcode fits =>
        simp [encode, operand, parsed, opcode, fits, Opcodes.get?]
    | zeroPage operand parsed opcode fits =>
        simp [encode, operand, parsed, opcode, fits, Opcodes.get?]
    | absolute operand parsed opcode far fits =>
        rcases far with h | h <;> simp [encode, operand, parsed, opcode, h, fits, Opcodes.get?]
    | label operand parsed opcode jumps named =>
        simp [encode, operand, parsed, opcode, jumps, named, Opcodes.get?]

theorem encode_eq_of_constant? (h : ∀ name, labels.constant? name = labels'.constant? name) :
    encode m param bus labels = encode m param bus labels' := by
  simp only [encode, Operand.parse, Operand.literal?, h]

theorem encode_congr (h : labels.consts = labels'.consts) :
    encode m param bus labels = encode m param bus labels' :=
  encode_eq_of_constant? fun name => by rw [Labels.constant?, Labels.constant?, h]

end CrossAssembler
