import CrossAssembler.Source
import CrossAssembler.Statement

namespace CrossAssembler.Section

structure Site where
  kind : SectionKind
  base : Nat
  limit : Nat
deriving DecidableEq, Repr

def encodeLine (bus : Bus) (site : Site) (labels : Labels) (offset : Nat) (line : SourceLine) :
    Traced Event Error (Labels × List Word) :=
  let blame (f : Fault) : Error := f.onLine (.code site.kind) line.number
  let overflow := Fault.overflow site.kind site.limit
  Traced.mapError blame <| do
    match ← .ofExcept (Statement.parse line.text) with
    | .label name =>
        .ofExcept (checkName name)
        if site.limit ≤ site.base + offset then .ofExcept (.error overflow)
        let labels' ← labels.bind name line.number site.kind (site.base + offset)
        return (labels', [])
    | .instruction mnemonic param =>
        let words ← .ofExcept (encode mnemonic param bus labels)
        if site.limit < site.base + (offset + words.length) then .ofExcept (.error overflow)
        return (labels, words)

def encodeLines (bus : Bus) (site : Site) :
    Labels → Nat → List SourceLine → Traced Event Error (Labels × List Word × List Row)
  | labels, _, [] => return (labels, [], [])
  | labels, offset, line :: lines => do
      let (labels, words) ← encodeLine bus site labels offset line
      let row : Row := ⟨line.number, offset, words.length, line.text⟩
      let (labels, more, rows) ← encodeLines bus site labels (offset + words.length) lines
      return (labels, words ++ more, row :: rows)

def encode (bus : Bus) (site : Site) (labels : Labels) (body : List SourceLine) :
    Traced Event Error (Labels × Section) := do
  let (labels, words, rows) ← encodeLines bus site labels 0 body
  .tell (.placed site.kind words.length site.base)
  return (labels, { kind := site.kind, base := site.base, words, rows })

def orgBase (location : Text) (bus : Bus) : Except Fault Nat :=
  match Literal.parse? location with
  | none => .error (.invalidOrgLocation location)
  | some l => if l.fits bus.address then .ok l.value else .error (.invalidOrgLocation location)

end CrossAssembler.Section
