import CrossAssembler.Error
import CrossAssembler.Literal
import CrossAssembler.Source
import CrossAssembler.Text.Search

namespace CrossAssembler

structure OrgBlock (β : Type) where
  location : Text
  line : Nat
  body : β
deriving DecidableEq, Repr

structure CodeBlocks (β : Type) where
  main : β
  interrupt : Option β
  orgs : List (OrgBlock β)
deriving DecidableEq, Repr

def OrgBlock.map {α β : Type} (f : α → β) (b : OrgBlock α) : OrgBlock β :=
  { location := b.location, line := b.line, body := f b.body }

def CodeBlocks.map {α β : Type} (f : α → β) (b : CodeBlocks α) : CodeBlocks β :=
  { main := f b.main, interrupt := b.interrupt.map f, orgs := b.orgs.map (·.map f) }

namespace Source

def block? (src : Source) (within : Span) (d : Directive) : Except Fault (Option Span) :=
  match Text.find? d.opening (src.slice within) with
  | none => .ok none
  | some pos =>
      let start := within.start + pos + d.opening.length
      match Text.find? d.closing (src.slice ⟨start, within.stop⟩) with
      | none => .error (.unclosedBlock d)
      | some len => .ok (some ⟨start, start + len⟩)

def block (src : Source) (within : Span) (d : Directive) : Except Fault Span := do
  match ← src.block? within d with
  | none => throw (.missingBlock d)
  | some body => return body

def headAndCode (src : Source) : Except Fault (Span × Span) := do
  let head ← src.block src.all .head
  let code ← src.block src.all .code
  return (head, code)

-- Where a location starts on the rest of a directive's line: at its first hexadecimal marker,
-- failing that the first binary one, failing that the first decimal one.
def locationStart? (rest : Text) : Option Nat :=
  [Radix.hex, Radix.bin, Radix.dec].findSome? fun r => rest.idxOf? r.marker

def orgBlock (src : Source) (code : Span) (pos : Nat) : Except Fault (OrgBlock Span) :=
  let after := code.start + pos + Directive.org.opening.length
  let rest := (src.slice ⟨after, code.stop⟩).takeWhile (· != '\n')
  match locationStart? rest with
  | none => .error (.missingOrgLocation (Text.trim (Directive.org.opening ++ rest)))
  | some marker =>
      let location := (rest.drop marker).takeWhile (fun c => !Text.isBlank c)
      let start := after + marker + location.length
      match Text.find? Directive.org.closing (src.slice ⟨start, code.stop⟩) with
      | none => .error (.unclosedBlock .org)
      | some len =>
          .ok
            { location := location
              line := src.lineOf (code.start + pos)
              body := ⟨start, start + len⟩ }

def codeBlocks (src : Source) (code : Span) : Except Fault (CodeBlocks Span) := do
  let main ← src.block code .main
  let interrupt ← src.block? code .interrupt
  let orgs ← (Text.occurrences Directive.org.opening (src.slice code)).mapM (src.orgBlock code)
  return { main, interrupt, orgs }

end Source

end CrossAssembler
