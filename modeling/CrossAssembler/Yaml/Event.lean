import CrossAssembler.Yaml.Token

namespace CrossAssembler.Yaml

structure Scalar where
  tag : Option Text := none
  style : Style := .plain
  text : Text := []
deriving DecidableEq, Repr

inductive Event (ρ : Type) where
  | alias (node : ρ)
  | scalar (s : Scalar)
  | listStart (tag : Option Text)
  | listEnd
  | mapStart (tag : Option Text)
  | mapEnd
deriving DecidableEq, Repr

structure Item (ρ : Type) where
  mark : Mark
  event : Event ρ
  anchor : Option Text := none
deriving DecidableEq, Repr

def Item.nothing {ρ : Type} (mark : Mark) : Item ρ :=
  { mark, event := .scalar {} }

end CrossAssembler.Yaml
