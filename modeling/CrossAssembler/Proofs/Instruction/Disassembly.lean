import CrossAssembler.Proofs.Bus
import CrossAssembler.Proofs.Section.Listing

namespace CrossAssembler

open Outcome

namespace Opcodes

def entries : List (Nat × Mnemonic × Mode) :=
  table.flatMap fun (m, o) => o.modes.map fun (mode, op) => (op, m, mode)

def lookup? (op : Nat) : Option (Mnemonic × Mode) :=
  entries.lookup op

theorem lookup?_modes : ∀ m ∈ Mnemonic.all, m ≠ .inc →
    ∀ x ∈ m.opcodes.modes, lookup? x.2 = some (m, x.1) := by
  decide +kernel

theorem lookup?_of_get? {m : Mnemonic} {mode : Mode} {op : Nat} (hinc : m ≠ .inc)
    (h : m.opcodes.get? mode = some op) : lookup? op = some (m, mode) :=
  lookup?_modes m m.mem_all hinc (mode, op) (mem_modes.mpr h)

end Opcodes

structure Decoded where
  mnemonic : Mnemonic
  mode : Mode
  operand : Option Nat
deriving DecidableEq, Repr

def disassemble (bus : Bus) : List Nat → Option (List Decoded)
  | [] => some []
  | op :: words =>
      match Opcodes.lookup? op with
      | none => none
      | some (m, mode) =>
          match mode, words with
          | .implied, rest => (disassemble bus rest).map (⟨m, .implied, none⟩ :: ·)
          | .immediate, n :: rest => (disassemble bus rest).map (⟨m, .immediate, some n⟩ :: ·)
          | .zeroPage, n :: rest => (disassemble bus rest).map (⟨m, .zeroPage, some n⟩ :: ·)
          | .absolute, low :: high :: rest =>
              (disassemble bus rest).map
                (⟨m, .absolute, some (low + high * bus.wordValues)⟩ :: ·)
          | _, _ => none

def Operand.value? (labels : Labels) : Operand → Option Nat
  | .absent => none
  | .immediate l => some l.value
  | .direct l => some l.value
  | .label name => labels.address? name

variable {bus : Bus} {labels : Labels} {m : Mnemonic}

structure Reads (bus : Bus) (labels : Labels) (statement : Mnemonic × Text) (d : Decoded) :
    Prop where
  mnemonic : d.mnemonic = statement.1
  mode : ∃ op operands, encode statement.1 statement.2 bus labels = .ok (.value op :: operands) ∧
    statement.1.opcodes.get? d.mode = some op ∧ operands.length = d.mode.operandWords
  operand : ∃ operand, Operand.parse statement.1 statement.2 labels = .ok operand ∧
    d.operand = operand.value? labels

def Row.instruction? (r : Row) : Option (Mnemonic × Text) :=
  match Statement.parse r.code with
  | .ok (.instruction m param) => some (m, param)
  | _ => none

section Step

variable {op : Nat}

theorem disassemble_implied (h : Opcodes.lookup? op = some (m, .implied)) (rest : List Nat) :
    disassemble bus (op :: rest) = (disassemble bus rest).map (⟨m, .implied, none⟩ :: ·) := by
  simp [disassemble, h]

theorem disassemble_immediate (h : Opcodes.lookup? op = some (m, .immediate)) (n : Nat)
    (rest : List Nat) : disassemble bus (op :: n :: rest) =
      (disassemble bus rest).map (⟨m, .immediate, some n⟩ :: ·) := by
  simp [disassemble, h]

theorem disassemble_zeroPage (h : Opcodes.lookup? op = some (m, .zeroPage)) (n : Nat)
    (rest : List Nat) : disassemble bus (op :: n :: rest) =
      (disassemble bus rest).map (⟨m, .zeroPage, some n⟩ :: ·) := by
  simp [disassemble, h]

theorem disassemble_absolute (h : Opcodes.lookup? op = some (m, .absolute)) {addr : Nat}
    (haddr : addr < bus.wordValues * bus.wordValues) (rest : List Nat) :
    disassemble bus (op :: (bus.split addr).1 :: (bus.split addr).2 :: rest) =
      (disassemble bus rest).map (⟨m, .absolute, some addr⟩ :: ·) := by
  simp [disassemble, h, Bus.split_fst_add_snd_mul haddr]

end Step

theorem InstructionEncodes.disassemble {param : Text} {ws : List Word} {ns : List Nat}
    (h : InstructionEncodes bus labels m param ws) (hinc : m ≠ .inc)
    (hresolved : ws.mapM (Word.resolve bus labels) = .ok ns)
    (hlabels : ∀ name addr, labels.address? name = some addr →
      addr < bus.wordValues * bus.wordValues) :
    ∃ d, Reads bus labels (m, param) d ∧
      ∀ rest, disassemble bus (ns ++ rest) = (disassemble bus rest).map (d :: ·) := by
  have hencode := encode_eq_ok_iff.mpr h
  have hlookup : ∀ {mode op}, m.opcodes.get? mode = some op →
      Opcodes.lookup? op = some (m, mode) := fun hop => Opcodes.lookup?_of_get? hinc hop
  cases h with
  | @implied op opcode =>
      obtain rfl : [op] = ns := by simpa [Word.resolve] using hresolved
      exact ⟨⟨m, .implied, none⟩, ⟨rfl, ⟨_, _, hencode, opcode, rfl⟩, _, rfl, rfl⟩,
        disassemble_implied (hlookup opcode)⟩
  | @immediate _ op l _ parsed opcode _ =>
      obtain rfl : [op, l.value] = ns := by simpa [Word.resolve] using hresolved
      exact ⟨⟨m, .immediate, some l.value⟩, ⟨rfl, ⟨_, _, hencode, opcode, rfl⟩, _, parsed, rfl⟩,
        disassemble_immediate (hlookup opcode) l.value⟩
  | @zeroPage _ op l _ parsed opcode _ =>
      obtain rfl : [op, l.value] = ns := by simpa [Word.resolve] using hresolved
      exact ⟨⟨m, .zeroPage, some l.value⟩, ⟨rfl, ⟨_, _, hencode, opcode, rfl⟩, _, parsed, rfl⟩,
        disassemble_zeroPage (hlookup opcode) l.value⟩
  | @absolute _ op l _ parsed opcode _ fits =>
      obtain rfl : [op, (bus.split l.value).1, (bus.split l.value).2] = ns := by
        simpa [Word.resolve] using hresolved
      have haddr : l.value < bus.wordValues * bus.wordValues :=
        Nat.lt_of_lt_of_le (Literal.fits_iff.mp fits) bus.space_le
      exact ⟨⟨m, .absolute, some l.value⟩, ⟨rfl, ⟨_, _, hencode, opcode, rfl⟩, _, parsed, rfl⟩,
        disassemble_absolute (hlookup opcode) haddr⟩
  | @label _ op _ parsed opcode _ _ =>
      cases haddr : labels.address? param with
      | none => simp [Word.resolve, haddr] at hresolved
      | some addr =>
          obtain rfl : [op, (bus.split addr).1, (bus.split addr).2] = ns := by
            simpa [Word.resolve, haddr] using hresolved
          exact ⟨⟨m, .absolute, some addr⟩,
            ⟨rfl, ⟨_, _, hencode, opcode, rfl⟩, _, parsed, haddr.symm⟩,
            disassemble_absolute (hlookup opcode) (hlabels param addr haddr)⟩

theorem Listed.disassemble {offset : Nat} {rows : List Row} {words : List Word} {ns : List Nat}
    (h : Listed bus labels offset rows words)
    (hinc : ∀ r ∈ rows, ∀ param, r.instruction? ≠ some (.inc, param))
    (hresolved : words.mapM (Word.resolve bus labels) = .ok ns)
    (hlabels : ∀ name addr, labels.address? name = some addr →
      addr < bus.wordValues * bus.wordValues) :
    ∃ code, disassemble bus ns = some code ∧
      List.Forall₂ (Reads bus labels) (rows.filterMap (·.instruction?)) code := by
  induction h generalizing ns with
  | nil =>
      obtain rfl : [] = ns := by simpa using hresolved
      exact ⟨[], rfl, .nil⟩
  | @cons offset r rows ws more _ emitted _ _ ih =>
      simp only [List.mapM_append, bind_eq_ok, pure_eq_ok] at hresolved
      obtain ⟨front, hfront, back, hback, rfl⟩ := hresolved
      obtain ⟨code, hcode, hreads⟩ := ih (fun r' hr' => hinc r' (List.mem_cons_of_mem r hr')) hback
      simp only [Row.words, bind_eq_ok] at emitted
      obtain ⟨statement, hparse, emitted⟩ := emitted
      cases statement with
      | label name =>
          obtain rfl := pure_eq_ok.mp emitted
          obtain rfl : [] = front := by simpa using hfront
          exact ⟨code, hcode, by simpa [Row.instruction?, hparse] using hreads⟩
      | instruction m param =>
          have hr : r.instruction? = some (m, param) := by simp [Row.instruction?, hparse]
          have hm : m ≠ .inc := by
            rintro rfl
            exact hinc r List.mem_cons_self param hr
          obtain ⟨d, hd, hstep⟩ :=
            (encode_eq_ok_iff.mp emitted).disassemble hm hfront hlabels
          refine ⟨d :: code, by rw [hstep, hcode]; rfl, ?_⟩
          rw [List.filterMap_cons_some hr]
          exact .cons hd hreads

end CrossAssembler
