import CrossAssembler.Yaml.Cursor
import CrossAssembler.Yaml.Token

namespace CrossAssembler.Yaml

inductive Chomping where
  | clip
  | strip
  | keep
deriving DecidableEq, Repr

structure BlockHeader where
  chomping : Chomping := .clip
  increment : Nat := 0
deriving DecidableEq, Repr

def blockContext : String := "while scanning a block scalar"

def chomping? (c : Cursor) : Option Chomping :=
  if c.sees '+' then some .keep else if c.sees '-' then some .strip else none

def increment? (start : Mark) (c : Cursor) : Except Problem (Option Nat) :=
  match c.rest with
  | [] => .ok none
  | x :: _ =>
      if x == '0' then
        .error (c.problem "found an indentation indicator equal to 0" blockContext start)
      else if isDecimal x then .ok (some (x.toNat - '0'.toNat))
      else .ok none

def blockHeader (start : Mark) (c : Cursor) : Except Problem (BlockHeader × Cursor) := do
  match chomping? c with
  | some chomping =>
      let c := c.skip 1
      match ← increment? start c with
      | some increment => return ({ chomping, increment }, c.skip 1)
      | none => return ({ chomping }, c)
  | none =>
      match ← increment? start c with
      | none => return ({}, c)
      | some increment =>
          let c := c.skip 1
          match chomping? c with
          | some chomping => return ({ chomping, increment }, c.skip 1)
          | none => return ({ increment }, c)

structure BlockGap where
  deepest : Nat := 0
  breaks : Text := []
deriving DecidableEq, Repr

def blockGapFrom (indent : Nat) (start : Mark) :
    Nat → BlockGap → Cursor → Except Problem (BlockGap × Cursor)
  | 0, g, c => .ok (g, c)
  | n + 1, g, c => do
      let spaces := c.rest.takeWhile (· == ' ')
      let c := c.advance (if indent = 0 then spaces else spaces.take (indent - c.mark.column))
      let g := { g with deepest := max g.deepest c.mark.column }
      if (indent = 0 || c.mark.column < indent) && c.sees '\t' then
        throw (c.problem "found a tab character where an indentation space is expected"
          blockContext start)
      if !c.atBreak then return (g, c)
      let (b, c) := c.overBreak
      blockGapFrom indent start n { g with breaks := g.breaks ++ b } c

structure BlockLines where
  read : Text := []
  ending : Text := []
  empty : Text := []
  blank : Bool := false
deriving DecidableEq, Repr

def BlockLines.joint (s : BlockLines) (literal blank : Bool) : Text :=
  if !literal && s.ending == ['\n'] && !s.blank && !blank then
    if s.empty.isEmpty then [' '] else s.empty
  else s.ending ++ s.empty

def BlockLines.text (s : BlockLines) : Chomping → Text
  | .strip => s.read
  | .clip => s.read ++ s.ending
  | .keep => s.read ++ s.ending ++ s.empty

def blockLinesFrom (literal : Bool) (indent : Nat) (start : Mark) :
    Nat → BlockLines → Cursor → Except Problem (BlockLines × Cursor)
  | 0, s, c => .ok (s, c)
  | n + 1, s, c => do
      if c.mark.column ≠ indent || c.atEnd then return (s, c)
      let blank := c.rest.head?.any isGap
      let (line, c) := c.span (fun x => !isBreak x)
      let read := s.read ++ s.joint literal blank ++ line
      let (ending, c) := c.overBreak
      let (gap, c) ← blockGapFrom indent start (c.rest.length + 1) {} c
      blockLinesFrom literal indent start n { read, ending, empty := gap.breaks, blank } c

def blockScalar (literal : Bool) (room : Nat) (c : Cursor) : Except Problem (Text × Cursor) := do
  let start := c.mark
  let (header, c) ← blockHeader start (c.skip 1)
  let line := (c.past isGap).pastComment
  let some c := c.lineEnd?
    | throw (line.problem "did not find expected comment or line break" blockContext start)
  let c := c.overBreak.2
  let said := if header.increment = 0 then 0 else max room 1 - 1 + header.increment
  let (gap, c) ← blockGapFrom said start (c.rest.length + 1) {} c
  let indent := if said = 0 then max (max gap.deepest room) 1 else said
  let (s, c) ← blockLinesFrom literal indent start (c.rest.length + 1) { empty := gap.breaks } c
  return (s.text header.chomping, c)

end CrossAssembler.Yaml
