import CrossAssembler.Traced
import CrossAssembler.Yaml.Event

namespace CrossAssembler.Yaml

structure Feed where
  tokens : List Token
  ending : Problem

abbrev Reading (α : Type) := Traced (Item Text) Problem α

namespace Feed

def peek (f : Feed) : Reading Token :=
  match f.tokens with
  | [] => .ofExcept (.error f.ending)
  | t :: _ => pure t

def rest (f : Feed) : Feed :=
  { f with tokens := f.tokens.tail }

end Feed

namespace Reading

def fail {α : Type} (text : String) (mark : Mark) (context : Option (String × Mark)) : Reading α :=
  .ofExcept (.error (.form text mark context))

def emit (mark : Mark) (event : Event Text) : Reading Unit :=
  .tell { mark, event }

def emitNothing (mark : Mark) : Reading Unit :=
  .tell (.nothing mark)

end Reading

open Reading

abbrev TagHandles := List (Text × Text)

def standardHandles : TagHandles :=
  [(['!'], ['!']), (['!', '!'], "tag:yaml.org,2002:".toList)]

structure Properties where
  start : Option Mark := none
  anchor : Option Text := none
  tag : Option (Text × Text × Mark) := none

def Properties.take? (p : Properties) (t : Token) : Option Properties :=
  match t.kind with
  | .anchor name =>
      if p.anchor.isNone then
        some { p with start := p.start.or (some t.start), anchor := some name }
      else none
  | .tag handle suffix =>
      if p.tag.isNone then
        some { p with start := p.start.or (some t.start), tag := some (handle, suffix, t.start) }
      else none
  | _ => none

def properties : Nat → Properties → Feed → Reading (Properties × Feed)
  | 0, p, f => return (p, f)
  | n + 1, p, f => do
      match p.take? (← f.peek) with
      | some p => properties n p f.rest
      | none => return (p, f)

def Properties.fullTag (p : Properties) (handles : TagHandles) (start : Mark) :
    Reading (Option Text) :=
  match p.tag with
  | none => return none
  | some (handle, suffix, mark) =>
      if handle.isEmpty then return some suffix
      else
        match handles.lookup handle with
        | some expansion => return some (expansion ++ suffix)
        | none =>
            fail "found undefined tag handle" mark (some ("while parsing a node", start))

def endsBlockPair : TokenKind → Bool
  | .key | .value | .blockEnd => true
  | _ => false

mutual

-- Reads a node. `block` says whether it may be a block, and `indentless` whether it may be a list
-- of entries that are not indented further than the key in front of it.
def node (fuel : Nat) (handles : TagHandles) (block indentless : Bool) (f : Feed) : Reading Feed :=
  match fuel with
  | 0 => .ofExcept (.error f.ending)
  | fuel + 1 => do
      let first ← f.peek
      if let .alias name := first.kind then
        emit first.start (.alias name)
        return f.rest
      let (p, f) ← properties 2 {} f
      let t ← f.peek
      let start := p.start.getD t.start
      let tag ← p.fullTag handles start
      let emitNode (event : Event Text) : Reading Unit :=
        .tell { mark := start, event, anchor := p.anchor }
      match t.kind with
      | .scalar style text =>
          let tag := if tag = some ['!'] then none else tag
          emitNode (.scalar { tag, style, text })
          return f.rest
      | .flowListStart =>
          emitNode (.listStart tag)
          flowList fuel handles t.start true f.rest
      | .flowMapStart =>
          emitNode (.mapStart tag)
          flowMap fuel handles t.start true f.rest
      | kind =>
          if indentless && kind == .blockEntry then
            emitNode (.listStart tag)
            entries fuel handles f
          else if block && kind == .blockListStart then
            emitNode (.listStart tag)
            blockList fuel handles t.start f.rest
          else if block && kind == .blockMapStart then
            emitNode (.mapStart tag)
            blockMap fuel handles t.start f.rest
          else if p.start.isSome then
            emitNode (.scalar { tag })
            return f
          else
            let context :=
              if block then "while parsing a block node" else "while parsing a flow node"
            fail "did not find expected node content" t.start (some (context, start))

def blockList (fuel : Nat) (handles : TagHandles) (since : Mark) (f : Feed) : Reading Feed :=
  match fuel with
  | 0 => .ofExcept (.error f.ending)
  | fuel + 1 => do
      let t ← f.peek
      match t.kind with
      | .blockEntry =>
          let next ← f.rest.peek
          if next.kind == .blockEntry || next.kind == .blockEnd then
            emitNothing t.stop
            blockList fuel handles since f.rest
          else
            let f ← node fuel handles true false f.rest
            blockList fuel handles since f
      | .blockEnd =>
          emit t.start .listEnd
          return f.rest
      | _ =>
          fail "did not find expected '-' indicator" t.start
            (some ("while parsing a block collection", since))

def entries (fuel : Nat) (handles : TagHandles) (f : Feed) : Reading Feed :=
  match fuel with
  | 0 => .ofExcept (.error f.ending)
  | fuel + 1 => do
      let t ← f.peek
      if t.kind == .blockEntry then
        let next ← f.rest.peek
        if next.kind == .blockEntry || endsBlockPair next.kind then
          emitNothing t.stop
          entries fuel handles f.rest
        else
          let f ← node fuel handles true false f.rest
          entries fuel handles f
      else
        emit t.start .listEnd
        return f

def blockMap (fuel : Nat) (handles : TagHandles) (since : Mark) (f : Feed) : Reading Feed :=
  match fuel with
  | 0 => .ofExcept (.error f.ending)
  | fuel + 1 => do
      let t ← f.peek
      match t.kind with
      | .key =>
          let next ← f.rest.peek
          if endsBlockPair next.kind then
            emitNothing t.stop
            blockValue fuel handles since f.rest
          else
            let f ← node fuel handles true true f.rest
            blockValue fuel handles since f
      | .blockEnd =>
          emit t.start .mapEnd
          return f.rest
      | _ =>
          fail "did not find expected key" t.start (some ("while parsing a block mapping", since))

def blockValue (fuel : Nat) (handles : TagHandles) (since : Mark) (f : Feed) : Reading Feed :=
  match fuel with
  | 0 => .ofExcept (.error f.ending)
  | fuel + 1 => do
      let t ← f.peek
      if t.kind == .value then
        let next ← f.rest.peek
        if endsBlockPair next.kind then
          emitNothing t.stop
          blockMap fuel handles since f.rest
        else
          let f ← node fuel handles true true f.rest
          blockMap fuel handles since f
      else
        emitNothing t.start
        blockMap fuel handles since f

def flowList (fuel : Nat) (handles : TagHandles) (since : Mark) (first : Bool) (f : Feed) :
    Reading Feed :=
  match fuel with
  | 0 => .ofExcept (.error f.ending)
  | fuel + 1 => do
      let t ← f.peek
      if t.kind == .flowListEnd then
        emit t.start .listEnd
        return f.rest
      if !first && t.kind ≠ .flowEntry then
        fail "did not find expected ',' or ']'" t.start
          (some ("while parsing a flow sequence", since))
      let f := if first then f else f.rest
      let t ← f.peek
      match t.kind with
      | .flowListEnd =>
          emit t.start .listEnd
          return f.rest
      | .key =>
          emit t.start (.mapStart none)
          let f ← flowPair fuel handles f.rest
          flowList fuel handles since false f
      | _ =>
          let f ← node fuel handles false false f
          flowList fuel handles since false f

-- Reads a key and its value that stand as a map of their own in a list in brackets. A key that is
-- missing takes the token after it along.
def flowPair (fuel : Nat) (handles : TagHandles) (f : Feed) : Reading Feed :=
  match fuel with
  | 0 => .ofExcept (.error f.ending)
  | fuel + 1 => do
      let t ← f.peek
      let f ←
        if t.kind == .value || t.kind == .flowEntry || t.kind == .flowListEnd then do
          emitNothing t.stop
          pure f.rest
        else node fuel handles false false f
      let t ← f.peek
      let f := if t.kind == .value then f.rest else f
      let next ← f.peek
      let f ←
        if t.kind == .value && next.kind ≠ .flowEntry && next.kind ≠ .flowListEnd then
          node fuel handles false false f
        else do
          emitNothing next.start
          pure f
      let t ← f.peek
      emit t.start .mapEnd
      return f

def flowMap (fuel : Nat) (handles : TagHandles) (since : Mark) (first : Bool) (f : Feed) :
    Reading Feed :=
  match fuel with
  | 0 => .ofExcept (.error f.ending)
  | fuel + 1 => do
      let t ← f.peek
      if t.kind == .flowMapEnd then
        emit t.start .mapEnd
        return f.rest
      if !first && t.kind ≠ .flowEntry then
        fail "did not find expected ',' or '\x7d'" t.start
          (some ("while parsing a flow mapping", since))
      let f := if first then f else f.rest
      let t ← f.peek
      match t.kind with
      | .flowMapEnd =>
          emit t.start .mapEnd
          return f.rest
      | .key =>
          let next ← f.rest.peek
          let f ←
            if next.kind == .value || next.kind == .flowEntry || next.kind == .flowMapEnd then do
              emitNothing next.start
              pure f.rest
            else node fuel handles false false f.rest
          let f ← flowValue fuel handles f
          flowMap fuel handles since false f
      | _ =>
          let f ← node fuel handles false false f
          let next ← f.peek
          emitNothing next.start
          flowMap fuel handles since false f

def flowValue (fuel : Nat) (handles : TagHandles) (f : Feed) : Reading Feed :=
  match fuel with
  | 0 => .ofExcept (.error f.ending)
  | fuel + 1 => do
      let t ← f.peek
      let f := if t.kind == .value then f.rest else f
      let next ← f.peek
      if t.kind == .value && next.kind ≠ .flowEntry && next.kind ≠ .flowMapEnd then
        node fuel handles false false f
      else
        emitNothing next.start
        return f

end

def addHandle (handles : TagHandles) (handle expansion : Text) : TagHandles :=
  if (handles.lookup handle).isSome then handles else handles ++ [(handle, expansion)]

def directives : Nat → Bool → TagHandles → Feed → Reading (TagHandles × Feed)
  | 0, _, handles, f => return (handles, f)
  | n + 1, versioned, handles, f => do
      let t ← f.peek
      match t.kind with
      | .version major minor =>
          if versioned then fail "found duplicate %YAML directive" t.start none
          if major ≠ 1 ∨ (minor ≠ 1 ∧ minor ≠ 2) then
            fail "found incompatible YAML document" t.start none
          directives n true handles f.rest
      | .tagHandle handle expansion =>
          if (handles.lookup handle).isSome then
            fail "found duplicate %TAG directive" t.start none
          directives n versioned (handles ++ [(handle, expansion)]) f.rest
      | _ =>
          let all := standardHandles.foldl (fun hs (h, e) => addHandle hs h e) handles
          return (all, f)

def startsDocument : TokenKind → Bool
  | .version .. | .tagHandle .. | .documentStart => true
  | _ => false

def endsDocument : TokenKind → Bool
  | .documentEnd | .streamEnd => true
  | kind => startsDocument kind

def document (f : Feed) : Reading Feed := do
  let fuel := 4 * (f.tokens.length + 2)
  let t ← f.peek
  let f ←
    if t.kind == .streamEnd then do
      emitNothing t.start
      pure f
    else if startsDocument t.kind then do
      let (handles, f) ← directives fuel false [] f
      let t ← f.peek
      if t.kind ≠ .documentStart then fail "did not find expected <document start>" t.start none
      let f := f.rest
      let t ← f.peek
      if endsDocument t.kind then do
        emitNothing t.start
        pure f
      else node fuel handles true false f
    else node fuel standardHandles true false f
  let t ← f.peek
  return if t.kind == .documentEnd then f.rest else f

def Feed.isOver (f : Feed) : Bool :=
  (f.tokens.dropWhile (·.kind == .documentEnd)).head?.any (·.kind == .streamEnd)

end CrossAssembler.Yaml
