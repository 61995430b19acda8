import CrossAssembler.Yaml.Problem

namespace CrossAssembler.Yaml

def isBreak (c : Char) : Bool :=
  c == '\n' || c == '\r' || c == '\x85' || c == '\u2028' || c == '\u2029'

-- The two line breaks that stand for themselves in a scalar; the others count as line feeds.
def isKeptBreak (c : Char) : Bool :=
  c == '\u2028' || c == '\u2029'

def isGap (c : Char) : Bool :=
  c == ' ' || c == '\t'

def gapAhead : Text → Bool
  | [] => true
  | c :: _ => isGap c || isBreak c

def isWordChar (c : Char) : Bool :=
  ('0' ≤ c && c ≤ '9') || ('A' ≤ c && c ≤ 'Z') || ('a' ≤ c && c ≤ 'z') || c == '_' || c == '-'

def isDecimal (c : Char) : Bool :=
  '0' ≤ c && c ≤ '9'

def isFlowMark (c : Char) : Bool :=
  c == ',' || c == '[' || c == ']' || c == '\x7b' || c == '\x7d'

structure Cursor where
  mark : Mark
  rest : Text
deriving DecidableEq, Repr

namespace Cursor

def ofText (t : Text) : Cursor :=
  ⟨{}, t⟩

def atEnd (c : Cursor) : Bool :=
  c.rest.isEmpty

def sees (c : Cursor) (x : Char) : Bool :=
  c.rest.head? == some x

def atBreak (c : Cursor) : Bool :=
  c.rest.head?.any isBreak

def advance (c : Cursor) (t : Text) : Cursor :=
  { mark :=
      { line := c.mark.line
        column := c.mark.column + t.length
        offset := t.foldl (fun n x => n + x.utf8Size) c.mark.offset }
    rest := c.rest.drop t.length }

def skip (c : Cursor) (n : Nat) : Cursor :=
  c.advance (c.rest.take n)

def span (c : Cursor) (p : Char → Bool) : Text × Cursor :=
  let t := c.rest.takeWhile p
  (t, c.advance t)

def past (c : Cursor) (p : Char → Bool) : Cursor :=
  (c.span p).2

def overBreak (c : Cursor) : Text × Cursor :=
  match c.rest with
  | '\r' :: '\n' :: t => (['\n'], ⟨⟨c.mark.line + 1, 0, c.mark.offset + 2⟩, t⟩)
  | x :: t =>
      if isBreak x then
        (if isKeptBreak x then [x] else ['\n'],
          ⟨⟨c.mark.line + 1, 0, c.mark.offset + x.utf8Size⟩, t⟩)
      else ([], c)
  | [] => ([], c)

def atTriple (c : Cursor) (x : Char) : Bool :=
  c.mark.column == 0 && c.rest.take 3 == [x, x, x] && gapAhead (c.rest.drop 3)

def atDocumentMark (c : Cursor) : Bool :=
  c.atTriple '-' || c.atTriple '.'

def pastComment (c : Cursor) : Cursor :=
  if c.sees '#' then c.past (fun x => !isBreak x) else c

def lineEnd? (c : Cursor) : Option Cursor :=
  let c := (c.past isGap).pastComment
  if c.atEnd || c.atBreak then some c else none

end Cursor

def Cursor.problem (c : Cursor) (text : String) (context : String) (since : Mark) : Problem :=
  .form text c.mark (some (context, since))

end CrossAssembler.Yaml
