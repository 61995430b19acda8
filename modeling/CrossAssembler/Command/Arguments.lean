import CrossAssembler.Event
import CrossAssembler.Settings

namespace CrossAssembler.Command

structure Switch where
  name : String
  letter : Option Char := none
  takesValue : Bool := true
deriving DecidableEq, Repr

inductive Item where
  | switch (name : String) (value : Option String)
  | word (text : String)
  | wrong
deriving DecidableEq, Repr

inductive Form where
  | long (name : String) (value : Option String)
  | letters (cs : List Char)
  | terminator
  | word
deriving DecidableEq, Repr

def formOf (arg : String) : Form :=
  match arg.toList with
  | ['-', '-'] => .terminator
  | '-' :: '-' :: t =>
      match Text.cutAt? (· == '=') t with
      | some (name, value) => .long (String.ofList name) (some (String.ofList value))
      | none => .long (String.ofList t) none
  | '-' :: c :: t => .letters (c :: t)
  | _ => .word

def letterItems (switches : List Switch) : List Char → List Item
  | [] => []
  | c :: cs =>
      match switches.find? fun s => s.letter == some c && !s.takesValue with
      | some s => .switch s.name none :: letterItems switches cs
      | none => [.wrong]

-- Takes a command line apart. With `stop`, what comes from the first word on is left as it is.
-- After a terminator there are words only.
def items (switches : List Switch) (stop : Bool) : List String → List Item × List String
  | [] => ([], [])
  | arg :: args =>
      match formOf arg with
      | .terminator => (args.map fun _ => .wrong, [])
      | .word =>
          if stop then ([], arg :: args)
          else
            let (more, rest) := items switches stop args
            (.word arg :: more, rest)
      | .letters cs =>
          let (more, rest) := items switches stop args
          (letterItems switches cs ++ more, rest)
      | .long name value =>
          match switches.find? (·.name == name) with
          | none => ([.wrong], [])
          | some s =>
              match s.takesValue, value, args with
              | false, none, args =>
                  let (more, rest) := items switches stop args
                  (.switch name none :: more, rest)
              | true, some v, args =>
                  let (more, rest) := items switches stop args
                  (.switch name (some v) :: more, rest)
              | true, none, v :: args =>
                  if formOf v = .word then
                    let (more, rest) := items switches stop args
                    (.switch name (some v) :: more, rest)
                  else ([.wrong], [])
              | _, _, _ => ([.wrong], [])

def signed? : Text → Option Int
  | '+' :: t => (digits t).map Int.ofNat
  | '-' :: t => (digits t).map fun n => -(n : Int)
  | t => (digits t).map Int.ofNat
where
  digits (t : Text) : Option Nat :=
    if t.isEmpty then none else Text.readDigits? 10 0 t

def width? (s : String) : Option Nat := do
  let n ← signed? s.toList
  if 0 ≤ n ∧ n.toNat < Nat.pow 2 32 then some n.toNat else none

def level? (s : String) : Option Level :=
  let levels := [Level.error, .warn, .info, .debug, .trace]
  let byName := levels.find? fun l => l.name.toList == s.toList.map Char.toUpper
  let byNumber := do
    let n ← signed? s.toList
    if s.toList.head? = some '-' ∨ n < 1 then none else levels[n.toNat - 1]?
  byNumber.or byName

structure Job where
  input : String
  output : String
  config : Option String
  flags : Settings
  dump : Bool
deriving DecidableEq, Repr

inductive Request where
  | assemble (job : Job)
  | opcodes (yaml : Bool)
  | version
  | help
deriving DecidableEq, Repr

structure Invocation where
  request : Request
  level : Level := .warn
deriving DecidableEq, Repr

structure Draft where
  values : List (String × Option String) := []
deriving DecidableEq, Repr

namespace Draft

def value? (d : Draft) (name : String) : Option String :=
  (d.values.lookup name).bind id

def has (d : Draft) (name : String) : Bool :=
  (d.values.lookup name).isSome

def accepts (name value : String) : Bool :=
  match name with
  | "dbl" | "abl" => (width? value).isSome
  | "off" => (Format.ofName? value).isSome
  | "log-level" => (level? value).isSome
  | _ => true

inductive Reading where
  | complete (draft : Draft)
  | help
  | version
  | wrong
deriving DecidableEq, Repr

def read (d : Draft) : List Item → Reading
  | [] => .complete d
  | .switch "help" _ :: _ => .help
  | .switch "version" _ :: _ => .version
  | .switch name value :: items =>
      if d.has name || !value.all (accepts name) then .wrong
      else read ⟨(name, value) :: d.values⟩ items
  | _ :: _ => .wrong

def level (d : Draft) : Option Level :=
  (d.value? "log-level").bind level?

end Draft

def helpSwitch : Switch := ⟨"help", some 'h', false⟩

def levelSwitch : Switch := { name := "log-level" }

def mainSwitches : List Switch :=
  [levelSwitch, helpSwitch, ⟨"version", some 'V', false⟩]

def assembleSwitches : List Switch :=
  [{ name := "dbl" }, { name := "abl" }, { name := "if" }, { name := "of" }, { name := "off" },
    { name := "config" }, ⟨"pad", none, false⟩, ⟨"dump", some 'd', false⟩, levelSwitch, helpSwitch]

def opcodesSwitches : List Switch :=
  [⟨"yaml", none, false⟩, levelSwitch, helpSwitch]

def jobOf (d : Draft) : Option Job := do
  let input ← d.value? "if"
  let output ← d.value? "of"
  return {
    input, output
    config := d.value? "config"
    flags :=
      { data := (d.value? "dbl").bind width?
        address := (d.value? "abl").bind width?
        format := (d.value? "off").bind Format.ofName?
        pad := d.has "pad" }
    dump := d.has "dump" }

def command (switches : List Switch) (level : Option Level) (args : List String)
    (request : Draft → Option Request) : Option Invocation :=
  match Draft.read {} (items switches false args).1 with
  | .wrong => none
  | .help => some { request := .help }
  | .version => some { request := .version }
  | .complete d => do
      let request ← request d
      return { request, level := (d.level.or level).getD .warn }

def parse? (args : List String) : Option Invocation :=
  let (front, rest) := items mainSwitches true args
  match Draft.read {} front with
  | .wrong => none
  | .help => some { request := .help }
  | .version => some { request := .version }
  | .complete d =>
      match rest with
      | "assemble" :: args =>
          command assembleSwitches d.level args fun d => (jobOf d).map .assemble
      | "isa" :: args =>
          command opcodesSwitches d.level args fun d => some (.opcodes (d.has "yaml"))
      | "help" :: _ => some { request := .help }
      | _ => none

end CrossAssembler.Command
