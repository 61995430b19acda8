import CrossAssembler.Section

namespace CrossAssembler

structure Image where
  bus : Bus
  words : List Nat
deriving DecidableEq, Repr

namespace Image

def maxWords : Nat := Nat.pow 2 24

def bits (image : Image) : List Text :=
  image.words.map image.bus.bits

-- Sections in the order of their bases; equal bases keep their order.
def byBase (sections : List Section) : List Section :=
  sections.mergeSort fun a b => a.base ≤ b.base

def lastStop (pad : Bool) (s : Section) : Nat :=
  match pad, s.kind.window? with
  | true, some (_, windowEnd) => max windowEnd s.stop
  | _, _ => s.stop

def stops (pad : Bool) : List Section → List (Section × Nat)
  | [] => []
  | [s] => [(s, lastStop pad s)]
  | s :: next :: rest => (s, next.base) :: stops pad (next :: rest)

def resolveFrom (bus : Bus) (labels : Labels) (s : Section) :
    Nat → List Word → Except Error (List Nat)
  | _, [] => .ok []
  | offset, w :: ws => do
      let n ← (w.resolve bus labels).mapError fun f =>
        match s.lineAt? offset with
        | some line => f.onLine (.code s.kind) line
        | none => f.bare
      let ns ← resolveFrom bus labels s (offset + 1) ws
      return n :: ns

def fill (bus : Bus) (labels : Labels) (s : Section) (stop : Nat) : Except Error (List Nat) := do
  let room := stop - s.base
  let words ← resolveFrom bus labels s 0 (s.words.take room)
  return words ++ List.replicate (room - s.size) 0

def link (bus : Bus) (labels : Labels) (pad : Bool) (sections : List Section) :
    Traced Event Error Image := do
  let spread := stops pad (byBase sections)
  let total := (spread.getLast?.map (·.2)).getD 0
  if maxWords < total then
    .ofExcept (.error (Fault.imageTooLarge total maxWords).bare)
  let parts ← .ofExcept (spread.mapM fun (s, stop) => fill bus labels s stop)
  let words := parts.flatten
  .tell (.linked sections.length words.length)
  return { bus, words }

end Image

end CrossAssembler
