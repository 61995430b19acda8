import CrossAssembler.Text.Numeral
import CrossAssembler.Yaml.Cursor
import CrossAssembler.Yaml.Token

namespace CrossAssembler.Yaml

def anchorName (context : String) (c : Cursor) : Except Problem (Text × Cursor) :=
  let (name, after) := (c.skip 1).span isWordChar
  let ends := gapAhead after.rest || after.rest.head?.any fun x =>
    [':', '?', ',', ']', '\x7d', '%', '@', '\x60'].contains x
  if name.isEmpty || !ends then
    .error (after.problem "did not find expected alphabetic or numeric character" context c.mark)
  else .ok (name, after)

def isTagChar (verbatim : Bool) (x : Char) : Bool :=
  isWordChar x || ";/?:@&=+$.!~*\x27()".toList.contains x ||
    (verbatim && (x == ',' || x == '[' || x == ']'))

inductive TagSite where
  | node | directive
deriving DecidableEq, Repr

def TagSite.context : TagSite → String
  | .node => "while parsing a tag"
  | .directive => "while parsing a %TAG directive"

def octet? : Text → Option Nat
  | '%' :: a :: b :: _ => Text.readDigits? 16 0 [a, b]
  | _ => none

def escapedTrail (site : TagSite) (start : Mark) :
    Nat → Nat → Cursor → Except Problem (Nat × Cursor)
  | 0, value, c => .ok (value, c)
  | n + 1, value, c =>
      match octet? c.rest with
      | none => .error (c.problem "did not find URI escaped octet" site.context start)
      | some b =>
          if b / 0x40 = 2 then escapedTrail site start n (value * 0x40 + b % 0x40) (c.skip 3)
          else .error (c.problem "found an incorrect trailing UTF-8 octet" site.context start)

def escapedChar (site : TagSite) (start : Mark) (c : Cursor) : Except Problem (Char × Cursor) :=
  match octet? c.rest with
  | none => .error (c.problem "did not find URI escaped octet" site.context start)
  | some b => do
      let (more, bits) ←
        if b < 0x80 then pure (0, b)
        else if b / 0x20 = 6 then pure (1, b % 0x20)
        else if b / 0x10 = 14 then pure (2, b % 0x10)
        else if b / 0x08 = 30 then pure (3, b % 0x08)
        else throw (c.problem "found an incorrect leading UTF-8 octet" site.context start)
      let (value, c) ← escapedTrail site start more bits (c.skip 3)
      return (Char.ofNat value, c)

def tagCharsFrom (verbatim : Bool) (site : TagSite) (start : Mark) :
    Nat → Text → Cursor → Except Problem (Text × Cursor)
  | 0, read, c => .ok (read.reverse, c)
  | n + 1, read, c =>
      match c.rest with
      | [] => .ok (read.reverse, c)
      | x :: _ =>
          if x == '%' then do
            let (e, c) ← escapedChar site start c
            tagCharsFrom verbatim site start n (e :: read) c
          else if isTagChar verbatim x then
            tagCharsFrom verbatim site start n (x :: read) (c.skip 1)
          else .ok (read.reverse, c)

def tagChars (verbatim : Bool) (site : TagSite) (start : Mark) (before : Bool) (c : Cursor) :
    Except Problem (Text × Cursor) := do
  let (t, after) ← tagCharsFrom verbatim site start c.rest.length [] c
  if after.mark = c.mark && !before then
    throw (after.problem "did not find expected tag URI" site.context start)
  return (t, after)

def tagHandle (c : Cursor) : Text × Cursor :=
  let (name, after) := (c.skip 1).span isWordChar
  if after.sees '!' then ('!' :: name ++ ['!'], after.skip 1) else ('!' :: name, after)

def tagToken (flow : Bool) (c : Cursor) : Except Problem (TokenKind × Cursor) := do
  let start := c.mark
  let fail (c : Cursor) (text : String) : Problem := c.problem text "while scanning a tag" start
  let (handle, suffix, after) ←
    if c.rest[1]? = some '<' then do
      let (suffix, after) ← tagChars true .node start false (c.skip 2)
      if !after.sees '>' then throw (fail after "did not find the expected '>'")
      pure ([], suffix, after.skip 1)
    else do
      let (handle, after) := tagHandle c
      if 1 < handle.length && handle.getLast? = some '!' then
        let (suffix, after) ← tagChars false .node start false after
        pure (handle, suffix, after)
      else
        let (more, after) ← tagChars false .node start true after
        let suffix := handle.drop 1 ++ more
        if suffix.isEmpty then pure ([], ['!'], after) else pure (['!'], suffix, after)
  if !(gapAhead after.rest || (flow && after.sees ',')) then
    throw (fail after "did not find expected whitespace or line break")
  return (.tag handle suffix, after)

def versionPart (start : Mark) (c : Cursor) : Except Problem (Nat × Cursor) := do
  let fail (c : Cursor) (text : String) : Problem :=
    c.problem text "while scanning a %YAML directive" start
  let (digits, after) := c.span isDecimal
  if 9 < digits.length then throw (fail (c.skip 9) "found extremely long version number")
  if digits.isEmpty then throw (fail after "did not find expected version number")
  return ((Text.readDigits? 10 0 digits).getD 0, after)

def versionValue (start : Mark) (c : Cursor) : Except Problem (TokenKind × Cursor) := do
  let (major, c) ← versionPart start (c.past isGap)
  if !c.sees '.' then
    throw (c.problem "did not find expected digit or '.' character"
      "while scanning a %YAML directive" start)
  let (minor, c) ← versionPart start (c.skip 1)
  return (.version major minor, c)

def tagHandleValue (start : Mark) (c : Cursor) : Except Problem (TokenKind × Cursor) := do
  let c := c.past isGap
  if !c.sees '!' then
    throw (c.problem "did not find expected '!'" "while scanning a tag directive" start)
  let (handle, c) := tagHandle c
  if 1 < handle.length && handle.getLast? ≠ some '!' then
    throw (c.problem "did not find expected '!'" "while parsing a tag directive" start)
  let fail (c : Cursor) (text : String) : Problem :=
    c.problem text "while scanning a %TAG directive" start
  if !c.rest.head?.any isGap then throw (fail c "did not find expected whitespace")
  let (expansion, c) ← tagChars true .directive start false (c.past isGap)
  if !gapAhead c.rest then throw (fail c "did not find expected whitespace or line break")
  return (.tagHandle handle expansion, c)

def directiveToken (c : Cursor) : Except Problem (Token × Cursor) := do
  let start := c.mark
  let fail (c : Cursor) (text : String) : Problem :=
    c.problem text "while scanning a directive" start
  let (name, c) := (c.skip 1).span isWordChar
  if name.isEmpty then throw (fail c "could not find expected directive name")
  if !gapAhead c.rest then throw (fail c "found unexpected non-alphabetical character")
  let (kind, c) ←
    if name = "YAML".toList then versionValue start c
    else if name = "TAG".toList then tagHandleValue start c
    else throw (fail c "found unknown directive name")
  let some stop := c.lineEnd?
    | throw (fail (c.past isGap).pastComment "did not find expected comment or line break")
  return (⟨kind, start, c.mark⟩, stop.overBreak.2)

end CrossAssembler.Yaml
