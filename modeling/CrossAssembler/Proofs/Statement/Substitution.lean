import CrossAssembler.Proofs.Alike
import CrossAssembler.Proofs.Statement.Modes

namespace CrossAssembler

open Outcome Text

variable {bus : Bus} {labels : Labels} {m : Mnemonic} {param param' token token' : Text}
  {l l' : Literal}

namespace Fault

def unquoted : Fault → Fault
  | .invalidParameter m _ => .invalidParameter m []
  | .unsupportedMode m _ mode => .unsupportedMode m [] mode
  | .unexpectedParameter m _ => .unexpectedParameter m []
  | f => f

def SameCause (f f' : Fault) : Prop :=
  f.unquoted = f'.unquoted

end Fault

inductive Operand.SameValue : Operand → Operand → Prop
  | immediate {l l' : Literal} (h : l.value = l'.value) : SameValue (.immediate l) (.immediate l')
  | direct {l l' : Literal} (h : l.value = l'.value) : SameValue (.direct l) (.direct l')

theorem Literal.fits_eq (h : l.value = l'.value) (width : Nat) : l.fits width = l'.fits width := by
  rw [fits, fits, h]

theorem encode_sameCause {o o' : Operand} (hne : param ≠ []) (hne' : param' ≠ [])
    (hparse : Operand.parse m param labels = .ok o)
    (hparse' : Operand.parse m param' labels = .ok o') (hvalue : o.SameValue o') :
    Outcome.Alike Fault.SameCause Eq (encode m param bus labels) (encode m param' bus labels) := by
  unfold encode
  cases hop : m.opcodes.implied with
  | some op =>
      simp only [hop, List.isEmpty_iff, hne, hne', if_false]
      exact .error rfl
  | none =>
      simp only [hop, hparse, hparse', ok_bind]
      cases hvalue with
      | immediate h =>
          simp only [Literal.fits_eq h, h]
          cases m.opcodes.get? .immediate with
          | none => exact .error rfl
          | some op =>
              simp only [ok_bind]
              split
              · exact .ok rfl
              · exact .error rfl
      | direct h =>
          simp only [Literal.fits_eq h, h]
          split
          · cases m.opcodes.get? .zeroPage with
            | none => exact .error rfl
            | some op => exact .ok rfl
          · split
            · cases m.opcodes.get? .absolute with
              | none => exact .error rfl
              | some op => exact .ok rfl
            · exact .error rfl

theorem Labels.encode_immediate (hl : labels.literal? token = some l)
    (hl' : labels.literal? token' = some l') (hvalue : l.value = l'.value) :
    Outcome.Alike Fault.SameCause Eq (encode m ('#' :: token) bus labels)
      (encode m ('#' :: token') bus labels) :=
  encode_sameCause (by simp) (by simp) (Operand.parse_eq_immediate_iff.mpr hl)
    (Operand.parse_eq_immediate_iff.mpr hl') (.immediate hvalue)

theorem Labels.Named.encode_direct (h : labels.Named) (hl : labels.literal? token = some l)
    (hl' : labels.literal? token' = some l') (hvalue : l.value = l'.value) :
    Outcome.Alike Fault.SameCause Eq (encode m token bus labels) (encode m token' bus labels) := by
  obtain ⟨hne, hhash⟩ := h.ne_nil_and_head?_ne hl
  obtain ⟨hne', hhash'⟩ := h.ne_nil_and_head?_ne hl'
  exact encode_sameCause hne hne' ((Operand.parse_eq_direct_iff hne hhash).mpr hl)
    ((Operand.parse_eq_direct_iff hne' hhash').mpr hl') (.direct hvalue)

inductive Operand.Substitutes (labels : Labels) : Text → Text → Prop
  | direct {name t : Text} {l l' : Literal} (defined : labels.constant? name = some l)
      (written : Literal.parse? t = some l') (value : l'.value = l.value) :
      Substitutes labels name t
  | immediate {name t : Text} {l l' : Literal} (defined : labels.constant? name = some l)
      (written : Literal.parse? t = some l') (value : l'.value = l.value) :
      Substitutes labels ('#' :: name) ('#' :: t)

theorem Text.solid_of_digitValue? {c : Char} {d : Nat} (h : digitValue? c = some d) :
    isBlank c = false ∧ c ≠ ':' := by
  have hall : ∀ n : Fin 128, (digitValue? (Char.ofNat n)).isSome = true →
      isBlank (Char.ofNat n) = false ∧ Char.ofNat n ≠ ':' := by decide
  have hc := hall ⟨c.toNat, toNat_lt_of_digitValue? h⟩
  rw [Char.ofNat_toNat, h] at hc
  exact hc rfl

theorem Literal.solid_of_parse? {t : Text} (h : parse? t = some l) :
    ∀ c ∈ t, isBlank c = false ∧ c ≠ ':' := by
  obtain ⟨digits, rfl, hdigits⟩ := exists_of_parse? h
  intro c hc
  rcases List.mem_cons.mp hc with rfl | hc
  · cases l.radix <;> decide
  · obtain ⟨d, hd, -⟩ := exists_digit_of_mem hdigits hc
    exact solid_of_digitValue? hd

namespace Operand.Substitutes

theorem encode (hnamed : labels.Named) (h : Operand.Substitutes labels param param') :
    Outcome.Alike Fault.SameCause Eq (CrossAssembler.encode m param bus labels)
      (CrossAssembler.encode m param' bus labels) := by
  cases h with
  | direct defined written value =>
      exact hnamed.encode_direct (Labels.literal?_of_constant? defined)
        (hnamed.literal?_of_parse? written) value.symm
  | immediate defined written value =>
      exact Labels.encode_immediate (Labels.literal?_of_constant? defined)
        (hnamed.literal?_of_parse? written) value.symm

theorem solid (h : Operand.Substitutes labels param param') :
    param' ≠ [] ∧ ∀ c ∈ param', isBlank c = false ∧ c ≠ ':' := by
  cases h with
  | direct _ written =>
      obtain ⟨digits, rfl, -⟩ := Literal.exists_of_parse? written
      exact ⟨by simp, Literal.solid_of_parse? written⟩
  | immediate _ written =>
      exact ⟨by simp, List.forall_mem_cons.mpr ⟨by decide, Literal.solid_of_parse? written⟩⟩

theorem ne_nil (hnamed : labels.Named) (h : Operand.Substitutes labels param param') :
    param ≠ [] := by
  cases h with
  | direct defined => exact (hnamed.ne_nil_and_head?_ne (Labels.literal?_of_constant? defined)).1
  | immediate => simp

theorem parse_replaced {before after : Text} (hnamed : labels.Named)
    (h : Operand.Substitutes labels param param') (hafter : Blank after)
    (hparse : Statement.parse (before ++ param ++ after) = .ok (.instruction m param)) :
    Statement.parse (before ++ param' ++ after) = .ok (.instruction m param') := by
  obtain ⟨hne, hsolid⟩ := h.solid
  exact Statement.parse_replaced hparse (h.ne_nil hnamed) hafter hne (fun c hc => (hsolid c hc).1)
    fun hcolon => (hsolid _ hcolon).2 rfl

end Operand.Substitutes

end CrossAssembler
