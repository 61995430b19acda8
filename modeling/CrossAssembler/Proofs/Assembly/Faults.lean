import CrossAssembler.Assembly
import CrossAssembler.Proofs.Outcome

namespace CrossAssembler

open Outcome

variable {bus : Bus} {labels : Labels}

namespace Fault

def isGlobal : Fault → Bool
  | .missingBlock _ | .unclosedBlock _ | .missingOrgLocation _ | .overlap _ _
  | .imageTooLarge _ _ => true
  | _ => false

def isLocal : Fault → Bool
  | .undefinedLabel _ => false
  | f => !f.isGlobal

theorem isGlobal_eq_false_of_isLocal {f : Fault} (h : f.isLocal = true) : f.isGlobal = false := by
  cases f <;> simp_all [isLocal, isGlobal]

theorem ne_undefinedLabel_of_isLocal {f : Fault} (h : f.isLocal = true) (name : Text) :
    f ≠ .undefinedLabel name := by
  rintro rfl
  simp [isLocal] at h

end Fault

def Global {α : Type} (x : Except Fault α) : Prop :=
  FailsIn (fun f => f.isGlobal = true) x

def Local {α : Type} (x : Except Fault α) : Prop :=
  FailsIn (fun f => f.isLocal = true) x

namespace Local

theorem checkName (name : Text) : Local (checkName name) := by
  unfold CrossAssembler.checkName
  exact .ite (.error rfl) (.ite (.error rfl) (.ok _))

theorem check (name value : Text) : Local (Constants.check name value) := by
  refine .bind (checkName name) fun _ => ?_
  cases Literal.parse? value with
  | none => exact .error rfl
  | some l => exact .ok l

theorem orgBase (location : Text) (bus : Bus) : Local (Section.orgBase location bus) := by
  unfold Section.orgBase
  cases Literal.parse? location with
  | none => exact .error rfl
  | some l => exact .ite (.ok _) (.error rfl)

theorem operation (name : Text) : Local (Statement.operation name) := by
  unfold Statement.operation
  cases Mnemonic.parse? name with
  | none => exact .error rfl
  | some m => exact .ok m

theorem parse (code : Text) : Local (Statement.parse code) := by
  unfold Statement.parse
  refine .ite (.ite (.error rfl) (.ok _)) ?_
  split
  · exact .map (operation _)
  · exact .map (operation _)
  · exact .error rfl

theorem literal? {invalid : Fault} (h : invalid.isLocal = true) (token : Text) :
    Local (Operand.literal? labels invalid token) := by
  unfold Operand.literal?
  split
  · exact .ok _
  · refine .ite ?_ (.ok _)
    split
    · exact .ok _
    · exact .error h

theorem operand (m : Mnemonic) (param : Text) : Local (Operand.parse m param labels) := by
  unfold Operand.parse
  split
  · exact .ok _
  · refine .bind (literal? rfl _) fun l => ?_
    cases l with
    | none => exact .error rfl
    | some l => exact .ok _
  · refine .bind (literal? rfl _) fun l => ?_
    cases l <;> exact .ok _

theorem encode (m : Mnemonic) (param : Text) : Local (encode m param bus labels) := by
  unfold CrossAssembler.encode
  dsimp only
  cases m.opcodes.implied with
  | some op => exact .ite (.ok _) (.error rfl)
  | none =>
      refine .bind (operand m param) fun operand => ?_
      cases operand with
      | absent => exact .error rfl
      | immediate l =>
          refine .bind ?_ fun _ => .ite (.ok _) (.error rfl)
          cases m.opcodes.get? .immediate <;> first | exact .error rfl | exact .ok _
      | direct l =>
          refine .ite (.bind ?_ fun _ => .ok _) (.ite (.bind ?_ fun _ => .ok _) (.error rfl))
          · cases m.opcodes.get? .zeroPage <;> first | exact .error rfl | exact .ok _
          · cases m.opcodes.get? .absolute <;> first | exact .error rfl | exact .ok _
      | label name =>
          refine .ite (.bind (checkName name) fun _ => .bind ?_ fun _ => .ok _) (.error rfl)
          cases m.opcodes.get? .absolute <;> first | exact .error rfl | exact .ok _

theorem bind (name : Text) (line : Nat) (kind : SectionKind) (address : Nat) :
    Local (labels.bind name line kind address).result := by
  unfold Labels.bind
  split
  · exact .error rfl
  · split
    · exact .error rfl
    · exact .ok _

end Local

namespace Global

variable {src : Source}

theorem block? (within : Span) (d : Directive) : Global (src.block? within d) := by
  unfold Source.block?
  cases Text.find? d.opening (src.slice within) with
  | none => exact .ok _
  | some pos =>
      dsimp only
      split
      · exact .error rfl
      · exact .ok _

theorem block (within : Span) (d : Directive) : Global (src.block within d) := by
  refine .bind (block? within d) fun body? => ?_
  cases body? with
  | none => exact .error rfl
  | some body => exact .ok body

theorem orgBlock (code : Span) (pos : Nat) : Global (src.orgBlock code pos) := by
  unfold Source.orgBlock
  dsimp only
  split
  · exact .error rfl
  · split
    · exact .error rfl
    · exact .ok _

theorem program (src : Source) : Global src.program := by
  refine .bind ?_ fun spans => .bind ?_ fun blocks => .ok _
  · exact .bind (block _ _) fun _ => .bind (block _ _) fun _ => .ok _
  · refine .bind (block _ _) fun _ => .bind (block? _ _) fun _ => .bind ?_ fun _ => .ok _
    exact .mapM (orgBlock _)

theorem validate (sections : List Section) : Global (Layout.validate sections) := by
  unfold Layout.validate
  split
  · exact .error rfl
  · split
    · exact .error rfl
    · exact .ok _

end Global

end CrossAssembler
