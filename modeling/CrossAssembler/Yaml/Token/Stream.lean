import CrossAssembler.Yaml.Token.Block
import CrossAssembler.Yaml.Token.Property
import CrossAssembler.Yaml.Token.Quoted

namespace CrossAssembler.Yaml

structure PossibleKey where
  required : Bool
  number : Nat
  mark : Mark
deriving DecidableEq, Repr

structure Scanner where
  cursor : Cursor
  tokens : Array Token := #[]
  indent : Int := -1
  outer : List Int := []
  keyAllowed : Bool := true
  keys : List (Option PossibleKey) := [none]
deriving Repr

namespace Scanner

def flow (s : Scanner) : Bool :=
  1 < s.keys.length

def column (s : Scanner) : Nat :=
  s.cursor.mark.column

def push (s : Scanner) (kind : TokenKind) (start : Mark) : Scanner :=
  { s with tokens := s.tokens.push ⟨kind, start, s.cursor.mark⟩ }

def setKey (s : Scanner) (key : Option PossibleKey) : Scanner :=
  { s with keys := key :: s.keys.tail }

def openKey? (s : Scanner) : Option PossibleKey :=
  s.keys.head?.join

def missingColon (s : Scanner) (key : PossibleKey) : Problem :=
  s.cursor.problem "could not find expected ':'" "while scanning a simple key" key.mark

def removeKey (s : Scanner) : Except Problem Scanner :=
  match s.openKey? with
  | some key => if key.required then .error (s.missingColon key) else .ok (s.setKey none)
  | none => .ok (s.setKey none)

def saveKey (s : Scanner) : Except Problem Scanner := do
  if !s.keyAllowed then return s
  let required := !s.flow && s.indent == s.column
  let s ← s.removeKey
  return s.setKey (some ⟨required, s.tokens.size, s.cursor.mark⟩)

-- A key ends on the line on which it starts, at most 1024 bytes from there.
def isStale (s : Scanner) (key : PossibleKey) : Bool :=
  key.mark.line < s.cursor.mark.line || key.mark.offset + 1024 < s.cursor.mark.offset

def dropStaleKeys (s : Scanner) : Except Problem Scanner :=
  match s.keys.reverse.find? fun k => k.any fun key => s.isStale key && key.required with
  | some (some key) => .error (s.missingColon key)
  | _ => .ok { s with keys := s.keys.map fun k => k.filter fun key => !s.isStale key }

def roll (s : Scanner) (column : Nat) (kind : TokenKind) (mark : Mark) (number : Option Nat) :
    Scanner :=
  if !s.flow && s.indent < column then
    let token : Token := ⟨kind, mark, mark⟩
    { s with
      outer := s.indent :: s.outer
      indent := column
      tokens := s.tokens.insertIdxIfInBounds (number.getD s.tokens.size) token }
  else s

def unrollFrom (column : Int) (close : Token) (indent : Int) (tokens : Array Token) :
    List Int → Int × List Int × Array Token
  | [] => (indent, [], tokens)
  | i :: outer =>
      if column < indent then unrollFrom column close i (tokens.push close) outer
      else (indent, i :: outer, tokens)

def unroll (s : Scanner) (column : Int) : Scanner :=
  if s.flow then s
  else
    let close : Token := ⟨.blockEnd, s.cursor.mark, s.cursor.mark⟩
    let (indent, outer, tokens) := unrollFrom column close s.indent s.tokens s.outer
    { s with indent, outer, tokens }

-- To the next token, over blanks, comments and line breaks; tells whether a key may start there.
-- Tabs are blanks inside of brackets and where no key may start. The number bounds the lines.
def seekFrom (flow : Bool) : Nat → Bool → Cursor → Bool × Cursor
  | 0, allowed, c => (allowed, c)
  | n + 1, allowed, c =>
      let c := if c.mark.column = 0 && c.sees '\ufeff' then c.skip 1 else c
      let c := c.past fun x => x == ' ' || ((flow || !allowed) && x == '\t')
      let c := c.pastComment
      if c.atBreak then seekFrom flow n (allowed || !flow) c.overBreak.2 else (allowed, c)

def seek (s : Scanner) : Scanner :=
  let (keyAllowed, cursor) := seekFrom s.flow (s.cursor.rest.length + 1) s.keyAllowed s.cursor
  { s with keyAllowed, cursor }

def indicator (s : Scanner) (kind : TokenKind) (length : Nat) : Scanner :=
  { s with cursor := s.cursor.skip length }.push kind s.cursor.mark

def streamEnd (s : Scanner) : Except Problem Scanner := do
  let m := s.cursor.mark
  let mark : Mark := if m.column = 0 then m else ⟨m.line + 1, 0, m.offset⟩
  let s := { s with cursor := { s.cursor with mark } }.unroll (-1)
  let s ← s.removeKey
  return { s with keyAllowed := false }.push .streamEnd mark

def directive (s : Scanner) : Except Problem Scanner := do
  let s ← (s.unroll (-1)).removeKey
  let (token, cursor) ← directiveToken s.cursor
  return { s with keyAllowed := false, cursor, tokens := s.tokens.push token }

def documentMark (s : Scanner) (kind : TokenKind) : Except Problem Scanner := do
  let s ← (s.unroll (-1)).removeKey
  return { s with keyAllowed := false }.indicator kind 3

def flowStart (s : Scanner) (kind : TokenKind) : Except Problem Scanner := do
  let s ← s.saveKey
  return { s with keys := none :: s.keys, keyAllowed := true }.indicator kind 1

def flowEnd (s : Scanner) (kind : TokenKind) : Except Problem Scanner := do
  let s ← s.removeKey
  let keys := if s.flow then s.keys.tail else s.keys
  return { s with keys, keyAllowed := false }.indicator kind 1

def flowEntry (s : Scanner) : Except Problem Scanner := do
  let s ← s.removeKey
  return { s with keyAllowed := true }.indicator .flowEntry 1

def rollHere (s : Scanner) (kind : TokenKind) (refusal : String) : Except Problem Scanner :=
  if s.flow then .ok s
  else if !s.keyAllowed then .error (.form refusal s.cursor.mark none)
  else .ok (s.roll s.column kind s.cursor.mark none)

def blockEntry (s : Scanner) : Except Problem Scanner := do
  let s ← s.rollHere .blockListStart "block sequence entries are not allowed in this context"
  let s ← s.removeKey
  return { s with keyAllowed := true }.indicator .blockEntry 1

def keyMark (s : Scanner) : Except Problem Scanner := do
  let s ← s.rollHere .blockMapStart "mapping keys are not allowed in this context"
  let s ← s.removeKey
  return { s with keyAllowed := !s.flow }.indicator .key 1

def valueMark (s : Scanner) : Except Problem Scanner := do
  match s.openKey? with
  | some key =>
      let token : Token := ⟨.key, key.mark, key.mark⟩
      let s := { s with tokens := s.tokens.insertIdxIfInBounds key.number token }
      let s := s.roll key.mark.column .blockMapStart key.mark (some key.number)
      return { s.setKey none with keyAllowed := false }.indicator .value 1
  | none =>
      let s ← s.rollHere .blockMapStart "mapping values are not allowed in this context"
      return { s with keyAllowed := !s.flow }.indicator .value 1

def keyLike (s : Scanner) (read : Cursor → Except Problem (TokenKind × Cursor)) :
    Except Problem Scanner := do
  let s ← s.saveKey
  let (kind, cursor) ← read s.cursor
  return { s with keyAllowed := false, cursor }.push kind s.cursor.mark

def anchor (s : Scanner) : Except Problem Scanner :=
  s.keyLike fun c => do
    let (name, after) ← anchorName "while scanning an anchor" c
    return (.anchor name, after)

def aliased (s : Scanner) : Except Problem Scanner :=
  s.keyLike fun c => do
    let (name, after) ← anchorName "while scanning an alias" c
    return (.alias name, after)

def quoted (s : Scanner) (quote : Char) : Except Problem Scanner :=
  s.keyLike fun c => do
    let (text, after) ← quotedScalar quote c
    return (.scalar .quoted text, after)

def room (s : Scanner) : Nat :=
  (s.indent + 1).toNat

def plain (s : Scanner) : Except Problem Scanner := do
  let s ← s.saveKey
  let p ← plainScalar s.flow s.room s.cursor
  return { s with keyAllowed := p.broken, cursor := p.after }.push (.scalar .plain p.text)
    s.cursor.mark

def block (s : Scanner) (literal : Bool) : Except Problem Scanner := do
  let s ← s.removeKey
  let (text, cursor) ← blockScalar literal s.room s.cursor
  let style := if literal then Style.literal else .folded
  return { s with keyAllowed := true, cursor }.push (.scalar style text) s.cursor.mark

def isIndicator (x : Char) : Bool :=
  isFlowMark x || x == '#' || x == '&' || x == '*' || x == '!' || x == '|' || x == '>' ||
    x == '\x27' || x == '\x22' || x == '%' || x == '@' || x == '\x60'

-- A plain scalar starts with a character before a text. Dashes, question marks and colons start one
-- if no blank follows, the last two not inside of brackets.
def startsPlain (flow : Bool) (x : Char) (t : Text) : Bool :=
  if x == '-' then !t.head?.any isGap
  else if x == '?' || x == ':' then !flow && !gapAhead t
  else !(isGap x || isBreak x || isIndicator x)

def token (s : Scanner) : Except Problem Scanner :=
  match s.cursor.rest with
  | [] => s.streamEnd
  | x :: t =>
      if s.column = 0 && x == '%' then s.directive
      else if s.cursor.atTriple '-' then s.documentMark .documentStart
      else if s.cursor.atTriple '.' then s.documentMark .documentEnd
      else if x == '[' then s.flowStart .flowListStart
      else if x == '\x7b' then s.flowStart .flowMapStart
      else if x == ']' then s.flowEnd .flowListEnd
      else if x == '\x7d' then s.flowEnd .flowMapEnd
      else if x == ',' then s.flowEntry
      else if x == '-' && gapAhead t then s.blockEntry
      else if x == '?' && (s.flow || gapAhead t) then s.keyMark
      else if x == ':' && (s.flow || gapAhead t) then s.valueMark
      else if x == '*' then s.aliased
      else if x == '&' then s.anchor
      else if x == '!' then s.keyLike (tagToken s.flow)
      else if x == '|' && !s.flow then s.block true
      else if x == '>' && !s.flow then s.block false
      else if x == '\x27' || x == '\x22' then s.quoted x
      else if startsPlain s.flow x t then s.plain
      else
        .error (s.cursor.problem "found character that cannot start any token"
          "while scanning for the next token" s.cursor.mark)

def step (s : Scanner) : Except Problem Scanner := do
  let s ← s.seek.dropStaleKeys
  (s.unroll s.column).token

def isDone (s : Scanner) : Bool :=
  s.tokens.back?.any (·.kind == .streamEnd) && s.keys.all (·.isNone)

def released (s : Scanner) : List Token :=
  s.tokens.toList.take (s.keys.reduceOption.foldl (fun n key => min n key.number) s.tokens.size)

def run : Nat → Scanner → List Token × Option Problem
  | 0, s => (s.released, none)
  | n + 1, s =>
      if s.isDone then (s.tokens.toList, none)
      else
        match s.step with
        | .error p => (s.released, some p)
        | .ok s' => run n s'

end Scanner

def tokens (t : Text) : List Token × Option Problem :=
  Scanner.run (t.length + 4) { cursor := .ofText t }

end CrossAssembler.Yaml
