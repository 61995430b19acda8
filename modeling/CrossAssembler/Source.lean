import CrossAssembler.Text.Line
import CrossAssembler.Text.Upper

namespace CrossAssembler

namespace Text

def uncomment : Text → Text
  | [] => []
  | '/' :: '/' :: _ => []
  | c :: t => c :: uncomment t

def significant? (line : Text) : Option Text :=
  let code := uncomment (trimStart line)
  if code.all isBlank then none else some (upper code)

end Text

structure SourceLine where
  number : Nat
  text : Text
deriving DecidableEq, Repr

structure Source where
  lines : List SourceLine
deriving DecidableEq, Repr

structure Span where
  start : Nat
  stop : Nat
deriving DecidableEq, Repr

namespace Source

def normalize (raw : Text) : Source :=
  ⟨(raw.lines.zipIdx 1).filterMap fun (line, number) =>
    line.significant?.map fun code => ⟨number, code⟩⟩

def text (src : Source) : Text :=
  src.lines.flatMap fun l => l.text ++ ['\n']

def all (src : Source) : Span :=
  ⟨0, src.text.length⟩

def slice (src : Source) (span : Span) : Text :=
  (src.text.take span.stop).drop span.start

def numberAt : List SourceLine → Nat → Nat
  | [], _ => 0
  | [l], _ => l.number
  | l :: ls, offset =>
      if offset ≤ l.text.length then l.number else numberAt ls (offset - (l.text.length + 1))

def lineOf (src : Source) (offset : Nat) : Nat :=
  numberAt src.lines offset

def piecesIn : List SourceLine → Nat → Nat → List SourceLine
  | [], _, _ => []
  | l :: ls, start, stop =>
      let piece := Text.trim ((l.text.take stop).drop start)
      let rest := piecesIn ls (start - (l.text.length + 1)) (stop - (l.text.length + 1))
      if piece.isEmpty then rest else ⟨l.number, piece⟩ :: rest

def linesIn (src : Source) (span : Span) : List SourceLine :=
  piecesIn src.lines span.start span.stop

end Source

end CrossAssembler
