import CrossAssembler.Bus
import CrossAssembler.Labels

namespace CrossAssembler

inductive Half where
  | low | high
deriving DecidableEq, Repr

inductive Word where
  | value (n : Nat)
  | label (name : Text) (half : Half)
deriving DecidableEq, Repr

def Word.resolve (bus : Bus) (labels : Labels) : Word → Except Fault Nat
  | .value n => .ok n
  | .label name half =>
      match labels.address? name with
      | none => .error (.undefinedLabel name)
      | some addr =>
          match half with
          | .low => .ok (bus.split addr).1
          | .high => .ok (bus.split addr).2

structure Row where
  line : Nat
  offset : Nat
  size : Nat
  code : Text
deriving DecidableEq, Repr

def Row.covers (r : Row) (offset : Nat) : Bool :=
  r.offset ≤ offset && offset < r.offset + r.size

structure Section where
  kind : SectionKind
  base : Nat
  words : List Word
  rows : List Row
deriving DecidableEq, Repr

namespace Section

def size (s : Section) : Nat :=
  s.words.length

def stop (s : Section) : Nat :=
  s.base + s.size

def contains (s : Section) (addr : Nat) : Bool :=
  s.base ≤ addr && addr < s.stop

theorem contains_iff {s : Section} {addr : Nat} :
    s.contains addr = true ↔ s.base ≤ addr ∧ addr < s.stop := by
  simp [contains]

def lineAt? (s : Section) (offset : Nat) : Option Nat :=
  (s.rows.find? (·.covers offset)).map (·.line)

end Section

end CrossAssembler
