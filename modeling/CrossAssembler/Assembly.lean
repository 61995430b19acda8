import CrossAssembler.Constants
import CrossAssembler.Image
import CrossAssembler.Layout
import CrossAssembler.Section.Encode
import CrossAssembler.Source.Blocks

namespace CrossAssembler

structure Assembly where
  image : Image
  sections : List Section
  labels : Labels
deriving DecidableEq, Repr

abbrev Program := CodeBlocks (List SourceLine)

namespace Program

def encodeOrgs (bus : Bus) :
    Labels → List (OrgBlock (List SourceLine)) → Traced Event Error (Labels × List Section)
  | labels, [] => return (labels, [])
  | labels, org :: orgs => do
      let kind := SectionKind.org org.location
      let base ← .ofExcept ((Section.orgBase org.location bus).mapError
        (·.onLine (.code kind) org.line))
      let (labels, s) ← Section.encode bus ⟨kind, base, bus.space - 1⟩ labels org.body
      let (labels, more) ← encodeOrgs bus labels orgs
      return (labels, s :: more)

def encode (bus : Bus) (labels : Labels) (p : Program) :
    Traced Event Error (Labels × List Section) := do
  let (labels, main) ← Section.encode bus ⟨.main, 0, mainEnd⟩ labels p.main
  let (labels, interrupt) ← match p.interrupt with
    | none => pure (labels, [])
    | some body => do
        let (labels, s) ← Section.encode bus ⟨.interrupt, mainEnd, interruptEnd⟩ labels body
        pure (labels, [s])
  let (labels, orgs) ← encodeOrgs bus labels p.orgs
  return (labels, main :: (interrupt ++ orgs))

def build (bus : Bus) (pad : Bool) (labels : Labels) (p : Program) :
    Traced Event Error Assembly := do
  let (labels, sections) ← p.encode bus labels
  .tell (.encoded sections.length labels.codes.length)
  .ofExcept ((Layout.validate sections).mapError (·.bare))
  let image ← Image.link bus labels pad sections
  return { image, sections := Image.byBase sections, labels }

end Program

namespace Source

def program (src : Source) : Except Fault (List SourceLine × Program) := do
  let (head, code) ← src.headAndCode
  let blocks ← src.codeBlocks code
  return (src.linesIn head, blocks.map src.linesIn)

end Source

def assemble (bus : Bus) (pad : Bool) (raw : Text) : Traced Event Error Assembly := do
  let (head, program) ← .ofExcept ((Source.normalize raw).program.mapError (·.bare))
  .tell (.split program.interrupt.isSome program.orgs.length)
  let labels ← Constants.collect Labels.empty head
  .tell (.collected labels.consts.length)
  program.build bus pad labels

end CrossAssembler
