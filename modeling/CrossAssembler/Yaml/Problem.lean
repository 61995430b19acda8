import CrossAssembler.Text.Blank

namespace CrossAssembler.Yaml

structure Mark where
  line : Nat := 0
  column : Nat := 0
  offset : Nat := 0
deriving DecidableEq, Repr

namespace Mark

def isStart (m : Mark) : Bool :=
  m.line == 0 && m.column == 0

def words (m : Mark) : String :=
  s!"line {m.line + 1} column {m.column + 1}"

end Mark

abbrev KeyPath := List (Option Text)

def KeyPath.words (path : KeyPath) : String :=
  ".".intercalate (path.map fun key => (key.map String.ofList).getD "?")

inductive Problem where
  | encoding (text : String) (offset : Nat)
  | form (text : String) (mark : Mark) (context : Option (String × Mark))
  | value (text : String) (place : Option (KeyPath × Mark))
  | whole (text : String)
deriving DecidableEq, Repr

namespace Problem

def locate (path : KeyPath) (mark : Mark) : Problem → Problem
  | .value text none => .value text (some (path, mark))
  | p => p

private def placed (mark : Mark) : String :=
  if mark.isStart then "" else " at " ++ mark.words

private def contextWords (mark : Mark) : Option (String × Mark) → String
  | none => ""
  | some (text, since) =>
      let same := since.line == mark.line && since.column == mark.column
      ", " ++ text ++ (if same then "" else placed since)

def message : Problem → String
  | .encoding text offset => if offset = 0 then text else s!"{text} at position {offset}"
  | .form text mark context => text ++ placed mark ++ contextWords mark context
  | .value text none => text
  | .value text (some ([], mark)) => text ++ placed mark
  | .value text (some (path, mark)) => s!"{path.words}: {text}" ++ placed mark
  | .whole text => text

end Problem

end CrossAssembler.Yaml
