import CrossAssembler.Text.Blank

namespace CrossAssembler

inductive Mnemonic where
  | adc | sub | inc | or | and | not | xor | rtcl | rtcr | dec
  | clcf | clzf | clnf | clof | clidf | scf | szf | snf | sof | sidf
  | lda | ldx | ldy | sta | stx | sty
  | tax | tay | txa | txy | tya | tyx
  | psha | pshs | pshx | pshy | popa | pops | popx | popy
  | nop | jmp | jsr | rets | bcc | bcs | bzc | bzs | bnc | bns | boc | bos | reti
deriving DecidableEq, Repr

namespace Mnemonic

def all : List Mnemonic :=
  [.adc, .sub, .inc, .or, .and, .not, .xor, .rtcl, .rtcr, .dec,
   .clcf, .clzf, .clnf, .clof, .clidf, .scf, .szf, .snf, .sof, .sidf,
   .lda, .ldx, .ldy, .sta, .stx, .sty,
   .tax, .tay, .txa, .txy, .tya, .tyx,
   .psha, .pshs, .pshx, .pshy, .popa, .pops, .popx, .popy,
   .nop, .jmp, .jsr, .rets, .bcc, .bcs, .bzc, .bzs, .bnc, .bns, .boc, .bos, .reti]

def name : Mnemonic → String
  | .adc => "ADC"
  | .sub => "SUB"
  | .inc => "INC"
  | .or => "OR"
  | .and => "AND"
  | .not => "NOT"
  | .xor => "XOR"
  | .rtcl => "RTCL"
  | .rtcr => "RTCR"
  | .dec => "DEC"
  | .clcf => "CLCF"
  | .clzf => "CLZF"
  | .clnf => "CLNF"
  | .clof => "CLOF"
  | .clidf => "CLIDF"
  | .scf => "SCF"
  | .szf => "SZF"
  | .snf => "SNF"
  | .sof => "SOF"
  | .sidf => "SIDF"
  | .lda => "LDA"
  | .ldx => "LDX"
  | .ldy => "LDY"
  | .sta => "STA"
  | .stx => "STX"
  | .sty => "STY"
  | .tax => "TAX"
  | .tay => "TAY"
  | .txa => "TXA"
  | .txy => "TXY"
  | .tya => "TYA"
  | .tyx => "TYX"
  | .psha => "PSHA"
  | .pshs => "PSHS"
  | .pshx => "PSHX"
  | .pshy => "PSHY"
  | .popa => "POPA"
  | .pops => "POPS"
  | .popx => "POPX"
  | .popy => "POPY"
  | .nop => "NOP"
  | .jmp => "JMP"
  | .jsr => "JSR"
  | .rets => "RETS"
  | .bcc => "BCC"
  | .bcs => "BCS"
  | .bzc => "BZC"
  | .bzs => "BZS"
  | .bnc => "BNC"
  | .bns => "BNS"
  | .boc => "BOC"
  | .bos => "BOS"
  | .reti => "RETI"

def parse? (t : Text) : Option Mnemonic :=
  all.find? fun m => m.name.toList == t.map Char.toUpper

theorem mem_all (m : Mnemonic) : m ∈ all := by
  cases m <;> decide

theorem parse?_name (m : Mnemonic) : parse? m.name.toList = some m := by
  cases m <;> decide

def takesLabel : Mnemonic → Bool
  | .jmp | .jsr | .bcc | .bcs | .bzc | .bzs | .bnc | .bns | .boc | .bos => true
  | _ => false

end Mnemonic

end CrossAssembler
