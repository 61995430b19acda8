import CrossAssembler.Proofs.Alike
import CrossAssembler.Proofs.Statement.Modes
import Mathlib.Logic.Relator

namespace CrossAssembler

open Outcome Text

variable {bus : Bus} {labels : Labels} {m : Mnemonic} {name name' param param' : Text}
  {N : Text → Text → Prop}

structure Labels.Admits (labels : Labels) (name : Text) : Prop where
  named : checkName name = .ok ()
  solid : ∀ c ∈ name, isBlank c = false
  free : labels.constant? name = none

instance (labels : Labels) (name : Text) : Decidable (labels.Admits name) :=
  decidable_of_iff
    (checkName name = .ok () ∧ name.any isBlank = false ∧ labels.constant? name = none)
    ⟨fun h => ⟨h.1, by simpa using h.2.1, h.2.2⟩, fun h => ⟨h.named, by simpa using h.solid, h.free⟩⟩

structure Renaming (labels : Labels) (N : Text → Text → Prop) : Prop where
  oneToOne : Relator.BiUnique N
  admits {name name' : Text} (h : N name name') : labels.Admits name ∧ labels.Admits name'

namespace Labels.Admits

theorem ne_nil (h : labels.Admits name) : name ≠ [] :=
  (checkName_eq_ok_iff.mp h.named).1

theorem not_mem_of_isReserved (h : labels.Admits name) {c : Char} (hc : isReserved c = true) :
    c ∉ name := by
  intro hmem
  rw [(checkName_eq_ok_iff.mp h.named).2 c hmem] at hc
  simp at hc

theorem parse_operand (h : labels.Admits name) :
    Operand.parse m name labels = .ok (.label name) :=
  Operand.parse_of_plain h.ne_nil (checkName_eq_ok_iff.mp h.named).2 h.free

theorem parse_declaration (h : labels.Admits name) :
    Statement.parse (name ++ [':']) = .ok (.label name) := by
  have htrim : trim name = name := by
    have hnil : Blank [] := by simp [Blank]
    simpa using (Tight.of_not_isBlank h.ne_nil h.solid).trim_append_right hnil
  have hsolid : name.any isBlank = false := by simpa using h.solid
  simp [Statement.parse, htrim, hsolid]

theorem parse_reference (h : labels.Admits name) (m : Mnemonic) :
    Statement.parse (m.name.toList ++ ' ' :: name) = .ok (.instruction m name) :=
  Statement.parse_written m h.ne_nil h.solid (h.not_mem_of_isReserved (by decide))

end Labels.Admits

inductive Operand.Renames (labels : Labels) (N : Text → Text → Prop) (m : Mnemonic) :
    Text → Text → Prop
  | reference {name name' : Text} (h : N name name') : Renames labels N m name name'
  | plain {param : Text} (h : ∀ name, Operand.parse m param labels ≠ .ok (.label name)) :
      Renames labels N m param param

inductive Statement.Renames (labels : Labels) (N : Text → Text → Prop) :
    Statement → Statement → Prop
  | declaration {name name' : Text} (h : N name name') :
      Renames labels N (.label name) (.label name')
  | instruction {m : Mnemonic} {param param' : Text} (h : Operand.Renames labels N m param param') :
      Renames labels N (.instruction m param) (.instruction m param')

inductive Word.Renames (N : Text → Text → Prop) : Word → Word → Prop
  | value (n : Nat) : Renames N (.value n) (.value n)
  | label {name name' : Text} (h : N name name') (half : Half) :
      Renames N (.label name half) (.label name' half)

theorem InstructionEncodes.words_plain {words : List Word}
    (h : InstructionEncodes bus labels m param words)
    (hplain : ∀ name, Operand.parse m param labels ≠ .ok (.label name)) :
    List.Forall₂ (Word.Renames N) words words := by
  cases h with
  | implied => exact .cons (.value _) .nil
  | immediate => exact .cons (.value _) (.cons (.value _) .nil)
  | zeroPage => exact .cons (.value _) (.cons (.value _) .nil)
  | absolute => exact .cons (.value _) (.cons (.value _) (.cons (.value _) .nil))
  | label _ parsed => exact absurd parsed (hplain _)

namespace Renaming

theorem encode_reference (h : Renaming labels N) (hname : N name name') :
    Alike (fun _ _ => True) (List.Forall₂ (Word.Renames N)) (encode m name bus labels)
      (encode m name' bus labels) := by
  obtain ⟨hadmits, hadmits'⟩ := h.admits hname
  unfold encode
  cases hop : m.opcodes.implied with
  | some op =>
      simp only [hop, List.isEmpty_iff, hadmits.ne_nil, hadmits'.ne_nil, if_false]
      exact .error trivial
  | none =>
      simp only [hop, hadmits.parse_operand, hadmits'.parse_operand, hadmits.named,
        hadmits'.named, ok_bind]
      split
      · cases m.opcodes.get? .absolute with
        | none => exact .error trivial
        | some op => exact .ok (.cons (.value op) (.cons (.label hname .low)
            (.cons (.label hname .high) .nil)))
      · exact .error trivial

theorem encode (h : Renaming labels N) (hparam : Operand.Renames labels N m param param') :
    Alike (fun _ _ => True) (List.Forall₂ (Word.Renames N))
      (CrossAssembler.encode m param bus labels) (CrossAssembler.encode m param' bus labels) := by
  cases hparam with
  | reference hname => exact h.encode_reference hname
  | plain hplain =>
      cases hwords : CrossAssembler.encode m param bus labels with
      | error f => exact .error trivial
      | ok words => exact .ok ((encode_eq_ok_iff.mp hwords).words_plain hplain)

end Renaming

end CrossAssembler
