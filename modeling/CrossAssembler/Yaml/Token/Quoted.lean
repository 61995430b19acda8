import CrossAssembler.Text.Numeral
import CrossAssembler.Yaml.Token.Plain

namespace CrossAssembler.Yaml

def escape? : Char → Option Char
  | '0' => some '\x00'
  | 'a' => some '\x07'
  | 'b' => some '\x08'
  | 't' => some '\t'
  | '\t' => some '\t'
  | 'n' => some '\n'
  | 'v' => some '\x0b'
  | 'f' => some '\x0c'
  | 'r' => some '\r'
  | 'e' => some '\x1b'
  | ' ' => some ' '
  | '\x22' => some '\x22'
  | '/' => some '/'
  | '\\' => some '\\'
  | 'N' => some '\x85'
  | '_' => some '\xa0'
  | 'L' => some '\u2028'
  | 'P' => some '\u2029'
  | _ => none

def escapeDigits? : Char → Option Nat
  | 'x' => some 2
  | 'u' => some 4
  | 'U' => some 8
  | _ => none

def escaped (start : Mark) (c : Cursor) : Except Problem (Char × Cursor) := do
  let fail (c : Cursor) (text : String) : Problem :=
    c.problem text "while parsing a quoted scalar" start
  let some e := c.rest[1]? | throw (fail c "found unknown escape character")
  if let some x := escape? e then return (x, c.skip 2)
  let some k := escapeDigits? e | throw (fail c "found unknown escape character")
  let c := c.skip 2
  let digits := c.rest.take k
  match Text.readDigits? 16 0 digits with
  | none => throw (fail c "did not find expected hexadecimal number")
  | some v =>
      if digits.length < k then throw (fail c "did not find expected hexadecimal number")
      if !v.isValidChar then throw (fail c "found invalid Unicode character escape code")
      return (Char.ofNat v, c.skip k)

structure QuotedRun where
  text : Text
  after : Cursor
  escapedBreak : Bool := false
deriving DecidableEq, Repr

def quotedRun (quote : Char) (start : Mark) : Nat → Text → Cursor → Except Problem QuotedRun
  | 0, read, c => .ok { text := read.reverse, after := c }
  | n + 1, read, c =>
      match c.rest with
      | [] => .ok { text := read.reverse, after := c }
      | x :: t =>
          if isGap x || isBreak x then .ok { text := read.reverse, after := c }
          else if x == quote then
            if quote == '\x27' && t.head? == some '\x27' then
              quotedRun quote start n ('\x27' :: read) (c.skip 2)
            else .ok { text := read.reverse, after := c }
          else if quote == '\x22' && x == '\\' then
            if t.head?.any isBreak then
              .ok { text := read.reverse, after := (c.skip 1).overBreak.2, escapedBreak := true }
            else do
              let (e, c) ← escaped start c
              quotedRun quote start n (e :: read) c
          else quotedRun quote start n (x :: read) (c.skip 1)

def quotedFrom (quote : Char) (start : Mark) : Nat → Text → Cursor → Except Problem (Text × Cursor)
  | 0, read, c => .ok (read, c)
  | n + 1, read, c => do
      let fail (text : String) : Problem := c.problem text "while scanning a quoted scalar" start
      if c.atDocumentMark then throw (fail "found unexpected document indicator")
      if c.atEnd then throw (fail "found unexpected end of stream")
      let run ← quotedRun quote start c.rest.length [] c
      let read := read ++ run.text
      if run.after.sees quote then return (read, run.after.skip 1)
      match gapFrom 0 run.after.rest.length { broken := run.escapedBreak } run.after with
      | .error c => return (read, c)
      | .ok (gap, next) => quotedFrom quote start n (read ++ gap.text) next

def quotedScalar (quote : Char) (c : Cursor) : Except Problem (Text × Cursor) :=
  quotedFrom quote c.mark (c.rest.length + 1) [] (c.skip 1)

end CrossAssembler.Yaml
