import CrossAssembler.Instruction.Mnemonic

namespace CrossAssembler

inductive Mode where
  | implied
  | immediate
  | zeroPage
  | absolute
deriving DecidableEq, Repr

namespace Mode

def all : List Mode :=
  [.implied, .immediate, .zeroPage, .absolute]

def name : Mode → String
  | .implied => "Implied"
  | .immediate => "Immediate"
  | .zeroPage => "ZeroPage"
  | .absolute => "Absolute"

def operandWords : Mode → Nat
  | .implied => 0
  | .immediate => 1
  | .zeroPage => 1
  | .absolute => 2

end Mode

structure Opcodes where
  implied : Option Nat := none
  immediate : Option Nat := none
  zeroPage : Option Nat := none
  absolute : Option Nat := none
deriving DecidableEq, Repr

namespace Opcodes

def impliedOnly (op : Nat) : Opcodes :=
  { implied := some op }

def operandForms (imm zp abs : Nat) : Opcodes :=
  { immediate := some imm, zeroPage := some zp, absolute := some abs }

def addressForms (zp abs : Nat) : Opcodes :=
  { zeroPage := some zp, absolute := some abs }

def absoluteOnly (abs : Nat) : Opcodes :=
  { absolute := some abs }

def get? (o : Opcodes) : Mode → Option Nat
  | .implied => o.implied
  | .immediate => o.immediate
  | .zeroPage => o.zeroPage
  | .absolute => o.absolute

def modes (o : Opcodes) : List (Mode × Nat) :=
  Mode.all.filterMap fun mode => (o.get? mode).map fun op => (mode, op)

theorem mem_modes {o : Opcodes} {mode : Mode} {op : Nat} :
    (mode, op) ∈ o.modes ↔ o.get? mode = some op := by
  cases mode <;> simp [modes, Mode.all]

end Opcodes

def Mnemonic.opcodes : Mnemonic → Opcodes
  | .adc => .operandForms 1 2 3
  | .sub => .operandForms 4 5 6
  | .inc => .impliedOnly 1
  | .or => .operandForms 8 9 10
  | .and => .operandForms 11 12 13
  | .not => .impliedOnly 14
  | .xor => .operandForms 15 16 17
  | .rtcl => .impliedOnly 18
  | .rtcr => .impliedOnly 19
  | .dec => .impliedOnly 20
  | .clcf => .impliedOnly 21
  | .clzf => .impliedOnly 22
  | .clnf => .impliedOnly 23
  | .clof => .impliedOnly 24
  | .clidf => .impliedOnly 25
  | .scf => .impliedOnly 26
  | .szf => .impliedOnly 27
  | .snf => .impliedOnly 28
  | .sof => .impliedOnly 29
  | .sidf => .impliedOnly 30
  | .lda => .operandForms 31 32 33
  | .ldx => .operandForms 34 35 36
  | .ldy => .operandForms 37 38 39
  | .sta => .addressForms 40 41
  | .stx => .addressForms 42 43
  | .sty => .addressForms 44 45
  | .tax => .impliedOnly 46
  | .tay => .impliedOnly 47
  | .txa => .impliedOnly 48
  | .txy => .impliedOnly 49
  | .tya => .impliedOnly 50
  | .tyx => .impliedOnly 51
  | .psha => .impliedOnly 52
  | .pshs => .impliedOnly 53
  | .pshx => .impliedOnly 54
  | .pshy => .impliedOnly 55
  | .popa => .impliedOnly 56
  | .pops => .impliedOnly 57
  | .popx => .impliedOnly 58
  | .popy => .impliedOnly 59
  | .nop => .impliedOnly 60
  | .jmp => .addressForms 61 62
  | .jsr => .absoluteOnly 63
  | .rets => .impliedOnly 64
  | .bcc => .addressForms 65 66
  | .bcs => .addressForms 67 68
  | .bzc => .addressForms 69 70
  | .bzs => .addressForms 71 72
  | .bnc => .addressForms 73 74
  | .bns => .addressForms 75 76
  | .boc => .addressForms 77 78
  | .bos => .addressForms 79 80
  | .reti => .impliedOnly 81

def Opcodes.table : List (Mnemonic × Opcodes) :=
  Mnemonic.all.map fun m => (m, m.opcodes)

end CrossAssembler
