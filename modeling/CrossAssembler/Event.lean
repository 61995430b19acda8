import CrossAssembler.Error

namespace CrossAssembler

inductive Level where
  | trace | debug | info | warn | error
deriving DecidableEq, Repr

namespace Level

def name : Level → String
  | .trace => "TRACE"
  | .debug => "DEBUG"
  | .info => "INFO"
  | .warn => "WARN"
  | .error => "ERROR"

def gravity : Level → Nat
  | .trace => 1
  | .debug => 2
  | .info => 3
  | .warn => 4
  | .error => 5

end Level

inductive Event where
  | split (interrupt : Bool) (orgs : Nat)
  | overridden (name : Text) (line earlier : Nat)
  | collected (constants : Nat)
  | bound (name : Text) (address : Nat) (kind : SectionKind)
  | placed (kind : SectionKind) (words base : Nat)
  | encoded (sections labels : Nat)
  | linked (sections words : Nat)
  | configured (data address : Nat) (format : String)
  | wrote (words : Nat) (path : String)
deriving DecidableEq, Repr

namespace Event

def level : Event → Level
  | .bound .. | .placed .. => .trace
  | .overridden .. => .warn
  | .configured .. => .info
  | _ => .debug

private def address (n : Nat) : String :=
  "0x" ++ String.ofList (Text.paddedNumeral 16 4 n)

def message : Event → String
  | .split interrupt orgs => s!"split source: interrupt={interrupt} orgs={orgs}"
  | .overridden name line earlier =>
      s!"constant `{String.ofList name}` at line {line} overrides the one at line {earlier}"
  | .collected constants => s!"collected {constants} constants"
  | .bound name addr kind => s!"bind {String.ofList name} = {address addr} ({kind.title})"
  | .placed kind words base => s!"{kind.title}: {words} words at {address base}"
  | .encoded sections labels => s!"encoded {sections} sections, {labels} code labels"
  | .linked sections words => s!"linked {sections} sections into {words} words"
  | .configured data addr format => s!"bus {data}/{addr} bits, format {format}"
  | .wrote words path => s!"wrote {words} words to {path}"

end Event

end CrossAssembler
