import CrossAssembler.Instruction.Opcodes
import CrossAssembler.Report.Style

namespace CrossAssembler.Report

def opcodeSlot : Option Nat → String
  | some op => yellow (right 3 (toString op))
  | none => dim (right 3 "-")

def opcodeRow (m : Mnemonic) (o : Opcodes) : String :=
  red (left 6 m.name) ++ String.join (Mode.all.map fun mode => " " ++ opcodeSlot (o.get? mode))

def opcodeHeader : String :=
  left 6 "" ++ String.join (["IMP", "IMM", "ZP", "ABS"].map fun title => " " ++ right 3 title)

def opcodeTable : List String :=
  opcodeHeader :: Opcodes.table.map fun (m, o) => opcodeRow m o

end CrossAssembler.Report
