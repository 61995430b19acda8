import CrossAssembler.Text.Blank

namespace CrossAssembler

inductive SectionKind where
  | main
  | interrupt
  | org (location : Text)
deriving DecidableEq, Repr

def mainEnd : Nat := 256

def interruptEnd : Nat := 1024

namespace SectionKind

def window? : SectionKind → Option (Nat × Nat)
  | .main => some (0, mainEnd)
  | .interrupt => some (mainEnd, interruptEnd)
  | .org _ => none

def isFixed (k : SectionKind) : Bool :=
  k.window?.isSome

def title : SectionKind → String
  | .main => "main section"
  | .interrupt => "interrupt section"
  | .org location => "org section at " ++ String.ofList location

end SectionKind

end CrossAssembler
