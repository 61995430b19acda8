import CrossAssembler.Instruction.Opcodes
import CrossAssembler.Yaml.Value

namespace CrossAssembler.Opcodes

def modeKey : Mode → String
  | .implied => "implied"
  | .immediate => "immediate"
  | .zeroPage => "zero_page"
  | .absolute => "absolute"

def set (o : Opcodes) (mode : Mode) (op : Option Nat) : Opcodes :=
  match mode with
  | .implied => { o with implied := op }
  | .immediate => { o with immediate := op }
  | .zeroPage => { o with zeroPage := op }
  | .absolute => { o with absolute := op }

def modeOfKey? (key : Text) : Option Mode :=
  Mode.all.find? fun mode => (modeKey mode).toList == key

def readSlot (d : Yaml.Document) (state : List Mode × Opcodes) (key : Text) (path : Yaml.KeyPath)
    (items : Yaml.Items) : Except Yaml.Problem ((List Mode × Opcodes) × Yaml.Items) := do
  let (seen, o) := state
  match modeOfKey? key with
  | none => return (state, ← d.pass 0 items)
  | some mode =>
      if seen.contains mode then
        throw (.value s!"duplicate field `{modeKey mode}`" none)
      let (op, rest) ← d.value (·.toOption (Yaml.Item.toNat "an opcode" 256 path)) items
      return ((mode :: seen, o.set mode op), rest)

def readOpcodes (d : Yaml.Document) (path : Yaml.KeyPath) (items : Yaml.Items) :
    Except Yaml.Problem (Opcodes × Yaml.Items) := do
  let slots : Yaml.Document.Entries (List Mode × Opcodes) Text :=
    { key := Yaml.Item.toText "field identifier" path, entry := readSlot d }
  let ((_, o), rest) ← d.map "opcodes" path slots ([], {}) items
  return (o, rest)

def mnemonicOfKey? (key : Text) : Option Mnemonic :=
  Mnemonic.all.find? (·.name.toList == key)

def readRows (d : Yaml.Document) : Except Yaml.Problem (List (Mnemonic × Opcodes)) := do
  let rows : Yaml.Document.Entries (List (Mnemonic × Opcodes)) Mnemonic :=
    { key := Yaml.Item.toChoice mnemonicOfKey? "a mnemonic" []
      entry := fun rows m path items => do
        let (o, rest) ← readOpcodes d path items
        return ((m, o) :: rows, rest) }
  d.read (d.map "a map" [] rows [])

def parseTable (t : Text) : Except Yaml.Problem (List (Mnemonic × Opcodes)) := do
  let rows ← readRows (.ofText t)
  return Mnemonic.all.filterMap fun m => (rows.lookup m).map (m, ·)

def yamlRow (m : Mnemonic) (o : Opcodes) : String :=
  match o.modes with
  | [] => m.name ++ ": \x7b\x7d\n"
  | modes =>
      m.name ++ ":\n" ++ String.join (modes.map fun (mode, op) =>
        "  " ++ modeKey mode ++ ": " ++ toString op ++ "\n")

def yamlTable : List (Mnemonic × Opcodes) → String
  | [] => "\x7b\x7d\n"
  | rows => String.join (rows.map fun (m, o) => yamlRow m o)

end CrossAssembler.Opcodes
