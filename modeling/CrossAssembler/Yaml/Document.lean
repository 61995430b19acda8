import CrossAssembler.Yaml.Encoding
import CrossAssembler.Yaml.Event.Grammar
import CrossAssembler.Yaml.Token.Stream

namespace CrossAssembler.Yaml

abbrev AnchorNames := List (Text × Nat)

structure Document where
  items : List (Item Nat) := []
  anchors : List (Nat × Nat) := []
  problem : Option Problem := none
  isLast : Bool := false
deriving DecidableEq, Repr

namespace Document

def ending (d : Document) : Problem :=
  d.problem.getD (.whole "EOF while parsing a value")

def target (d : Document) (anchor : Nat) : List (Item Nat) :=
  match d.anchors.lookup anchor with
  | some n => d.items.drop n
  | none => []

-- Gives a name the next number. The numbers count different names, so a name that comes again moves
-- on to a number that the next new name takes over.
def number (names : AnchorNames) (name : Text) : AnchorNames × Nat :=
  ((name, names.length) :: names.filter (·.1 ≠ name), names.length)

def resolve (count : Nat) (names : AnchorNames) (d : Document) : List (Item Text) → Document
  | [] => { d with items := d.items.reverse }
  | item :: items =>
      let add (event : Event Nat) : Document :=
        let (names, anchors) := match item.anchor with
          | none => (names, d.anchors)
          | some name =>
              let (names, n) := number names name
              (names, (n, count) :: d.anchors)
        resolve (count + 1) names
          { d with items := ⟨item.mark, event, item.anchor⟩ :: d.items, anchors } items
      match item.event with
      | .alias name =>
          match names.lookup name with
          | some n => add (.alias n)
          | none =>
              { d with
                items := d.items.reverse
                problem := some (.form "unknown anchor" item.mark none) }
      | .scalar s => add (.scalar s)
      | .listStart tag => add (.listStart tag)
      | .listEnd => add .listEnd
      | .mapStart tag => add (.mapStart tag)
      | .mapEnd => add .mapEnd

def ofAllowed (t : Text) : Document :=
  let (tokens, problem) := tokens t
  let reading := document ⟨tokens, problem.getD (.whole "unexpected end")⟩
  match reading.result with
  | .ok rest => resolve 0 [] { isLast := rest.isOver } reading.log
  | .error p => resolve 0 [] { problem := some p } reading.log

def ofText (t : Text) : Document :=
  match checked t with
  | .error p => { problem := some p }
  | .ok t => ofAllowed t

def ofBytes (bytes : List UInt8) : Document :=
  match decode bytes with
  | .error p => { problem := some p }
  | .ok t => ofAllowed t

end Document

end CrossAssembler.Yaml
