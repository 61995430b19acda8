import CrossAssembler.Bus
import CrossAssembler.Image.Format
import CrossAssembler.Yaml.Value

namespace CrossAssembler

structure Settings where
  data : Option Nat := none
  address : Option Nat := none
  format : Option Format := none
  pad : Bool := false
deriving DecidableEq, Repr

inductive SettingsError where
  | missing (setting : String)
  | bus (error : BusError)
deriving DecidableEq, Repr

def SettingsError.message : SettingsError → String
  | .missing setting => s!"Missing {setting}, pass it as a flag or set it in the config file"
  | .bus e => e.message

namespace Settings

def merge (file flags : Settings) : Settings :=
  { data := flags.data.or file.data
    address := flags.address.or file.address
    format := flags.format.or file.format
    pad := flags.pad || file.pad }

def bus (s : Settings) : Except SettingsError Bus := do
  let some data := s.data | throw (.missing "data bus length")
  let some address := s.address | throw (.missing "address bus length")
  (Bus.ofWidths data address).mapError .bus

def requiredFormat (s : Settings) : Except SettingsError Format :=
  match s.format with
  | none => .error (.missing "output format")
  | some f => .ok f

inductive Field where
  | data | address | format | pad
deriving DecidableEq, Repr

namespace Field

def all : List Field :=
  [.data, .address, .format, .pad]

def key : Field → String
  | .data => "data_bus_length"
  | .address => "address_bus_length"
  | .format => "format"
  | .pad => "pad_windows"

def ofKey? (key : Text) : Option Field :=
  all.find? (·.key.toList == key)

end Field

def readWidth : Yaml.KeyPath → Yaml.Item Nat → Except Yaml.Problem Nat :=
  Yaml.Item.toNat "u32" (Nat.pow 2 32)

def readFormat : Yaml.KeyPath → Yaml.Item Nat → Except Yaml.Problem Format :=
  Yaml.Item.toChoice (fun t => Format.ofName? (String.ofList t)) "one of `bin`, `coe`, `mif`"

def readField (d : Yaml.Document) (s : Settings) (field : Field) (path : Yaml.KeyPath)
    (items : Yaml.Items) : Except Yaml.Problem (Settings × Yaml.Items) := do
  match field with
  | .data =>
      let (data, rest) ← d.value (·.toOption (readWidth path)) items
      return ({ s with data }, rest)
  | .address =>
      let (address, rest) ← d.value (·.toOption (readWidth path)) items
      return ({ s with address }, rest)
  | .format =>
      let (format, rest) ← d.value (·.toOption (readFormat path)) items
      return ({ s with format }, rest)
  | .pad =>
      let (pad, rest) ← d.value (·.toBool path) items
      return ({ s with pad }, rest)

def readEntry (d : Yaml.Document) (state : List Field × Settings) (key : Text)
    (path : Yaml.KeyPath) (items : Yaml.Items) :
    Except Yaml.Problem ((List Field × Settings) × Yaml.Items) := do
  let (seen, s) := state
  match Field.ofKey? key with
  | none => return (state, ← d.pass 0 items)
  | some field =>
      if seen.contains field then
        throw (.value s!"duplicate field `{field.key}`" none)
      let (s, rest) ← readField d s field path items
      return ((field :: seen, s), rest)

def ofDocument (d : Yaml.Document) : Except Yaml.Problem Settings := do
  let entries : Yaml.Document.Entries (List Field × Settings) Text :=
    { key := Yaml.Item.toText "field identifier" [], entry := readEntry d }
  let (_, s) ← d.read (d.map "struct Config" [] entries ([], {}))
  return s

def parse (t : Text) : Except Yaml.Problem Settings :=
  ofDocument (.ofText t)

def parseBytes (bytes : List UInt8) : Except Yaml.Problem Settings :=
  ofDocument (.ofBytes bytes)

private def shown {α : Type} (f : α → String) : Option α → String
  | none => "null"
  | some a => f a

def fieldText (s : Settings) : Field → String
  | .data => shown toString s.data
  | .address => shown toString s.address
  | .format => shown Format.name s.format
  | .pad => toString s.pad

def yaml (s : Settings) : String :=
  String.join (Field.all.map fun field => field.key ++ ": " ++ s.fieldText field ++ "\n")

end Settings

end CrossAssembler
