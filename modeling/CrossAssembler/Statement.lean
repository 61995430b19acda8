import CrossAssembler.Section

namespace CrossAssembler

inductive Statement where
  | label (name : Text)
  | instruction (mnemonic : Mnemonic) (param : Text)
deriving DecidableEq, Repr

namespace Statement

def operation (name : Text) : Except Fault Mnemonic :=
  match Mnemonic.parse? name with
  | none => .error (.unknownOperation name)
  | some m => .ok m

def parse (code : Text) : Except Fault Statement :=
  if code.getLast? = some ':' then
    let name := Text.trim code.dropLast
    if name.any Text.isBlank then .error (.malformed code) else .ok (.label name)
  else
    match code.words with
    | [op] => (operation op).map (.instruction · [])
    | [op, param] => (operation op).map (.instruction · param)
    | _ => .error (.malformed code)

end Statement

inductive Operand where
  | absent
  | immediate (value : Literal)
  | direct (value : Literal)
  | label (name : Text)
deriving DecidableEq, Repr

namespace Operand

def literal? (labels : Labels) (invalid : Fault) (token : Text) : Except Fault (Option Literal) :=
  match labels.constant? token with
  | some l => .ok (some l)
  | none =>
      if token.hasMarker then
        match Literal.parse? token with
        | some l => .ok (some l)
        | none => .error invalid
      else .ok none

def parse (mnemonic : Mnemonic) (param : Text) (labels : Labels) : Except Fault Operand :=
  let invalid := Fault.invalidParameter mnemonic param
  match param with
  | [] => .ok .absent
  | '#' :: token => do
      match ← literal? labels invalid token with
      | some l => return .immediate l
      | none => throw invalid
  | _ => do
      match ← literal? labels invalid param with
      | some l => return .direct l
      | none => return .label param

end Operand

def encode (mnemonic : Mnemonic) (param : Text) (bus : Bus) (labels : Labels) :
    Except Fault (List Word) :=
  let opcodes := mnemonic.opcodes
  let invalid := Fault.invalidParameter mnemonic param
  let opcode (mode : Mode) : Except Fault Word :=
    match opcodes.get? mode with
    | some op => .ok (.value op)
    | none => .error (.unsupportedMode mnemonic param mode)
  match opcodes.implied with
  | some op =>
      if param.isEmpty then .ok [.value op] else .error (.unexpectedParameter mnemonic param)
  | none => do
      match ← Operand.parse mnemonic param labels with
      | .absent => throw (.missingParameter mnemonic)
      | .immediate l =>
          let op ← opcode .immediate
          if l.fits bus.data then return [op, .value l.value] else throw invalid
      | .direct l =>
          if l.fits bus.data && opcodes.zeroPage.isSome then
            return [← opcode .zeroPage, .value l.value]
          else if l.fits bus.address then
            let op ← opcode .absolute
            let (low, high) := bus.split l.value
            return [op, .value low, .value high]
          else throw invalid
      | .label name =>
          if mnemonic.takesLabel then
            checkName name
            return [← opcode .absolute, .label name .low, .label name .high]
          else throw invalid

end CrossAssembler
