import CrossAssembler.Yaml.Cursor

namespace CrossAssembler.Yaml

structure Gap where
  spaces : Text := []
  broken : Bool := false
  first : Text := []
  more : Text := []
deriving DecidableEq, Repr

def Gap.text (g : Gap) : Text :=
  if !g.broken then g.spaces
  else if g.first ≠ ['\n'] then g.first ++ g.more
  else if g.more.isEmpty then [' ']
  else g.more

-- Reads a gap to its end. A tab at the start of a line is in column `tabsFrom` at least; the cursor
-- before one that is not is given back as the error. The number bounds the characters read.
def gapFrom (tabsFrom : Nat) : Nat → Gap → Cursor → Except Cursor (Gap × Cursor)
  | 0, g, c => .ok (g, c)
  | n + 1, g, c =>
      match c.rest with
      | [] => .ok (g, c)
      | x :: _ =>
          if isGap x then
            if g.broken && c.mark.column < tabsFrom && x == '\t' then .error c
            else
              let g := if g.broken then g else { g with spaces := g.spaces ++ [x] }
              gapFrom tabsFrom n g (c.skip 1)
          else if isBreak x then
            let (b, c) := c.overBreak
            let g :=
              if g.broken then { g with more := g.more ++ b }
              else { g with broken := true, first := b }
            gapFrom tabsFrom n g c
          else .ok (g, c)

def plainRun (flow : Bool) : Text → Text
  | [] => []
  | x :: t =>
      let stops :=
        isGap x || isBreak x || (x == ':' && gapAhead t) || (flow && isFlowMark x) ||
        (flow && x == ':' && t.head?.any fun y => isFlowMark y || y == '?')
      if stops then [] else x :: plainRun flow t

def strayColon (flow : Bool) : Text → Bool
  | ':' :: y :: _ => flow && (isFlowMark y || y == '?')
  | _ => false

structure Plain where
  text : Text
  after : Cursor
  broken : Bool
deriving DecidableEq, Repr

def plainFrom (flow : Bool) (indent : Nat) (start : Mark) :
    Nat → Text → Gap → Cursor → Except Problem Plain
  | 0, read, gap, c => .ok ⟨read, c, gap.broken⟩
  | n + 1, read, gap, c => do
      if c.atDocumentMark || c.sees '#' then return ⟨read, c, gap.broken⟩
      let run := plainRun flow c.rest
      let after := c.advance run
      if strayColon flow after.rest then
        throw (after.problem "found unexpected ':'" "while scanning a plain scalar" start)
      if run.isEmpty then return ⟨read, c, gap.broken⟩
      let read := read ++ gap.text ++ run
      match gapFrom indent after.rest.length {} after with
      | .error tab =>
          throw (tab.problem "found a tab character that violates indentation"
            "while scanning a plain scalar" start)
      | .ok (gap, next) =>
          if (!flow && next.mark.column < indent) || next.mark = after.mark then
            return ⟨read, next, gap.broken⟩
          plainFrom flow indent start n read gap next

def plainScalar (flow : Bool) (indent : Nat) (c : Cursor) : Except Problem Plain :=
  plainFrom flow indent c.mark (c.rest.length + 1) [] {} c

end CrossAssembler.Yaml
