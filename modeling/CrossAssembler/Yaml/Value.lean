import CrossAssembler.Yaml.Document
import CrossAssembler.Yaml.Scalar

namespace CrossAssembler.Yaml

abbrev Items := List (Item Nat)

def Event.mismatch (wanted : String) : Event Nat → String
  | .scalar s => s.mismatch wanted
  | .mapStart _ => wrongType "map" wanted
  | _ => wrongType "sequence" wanted

def Item.problem (item : Item Nat) (path : KeyPath) (text : String) : Problem :=
  .value text (some (path, item.mark))

def Item.unexpected (item : Item Nat) (path : KeyPath) (wanted : String) : Problem :=
  item.problem path (item.event.mismatch wanted)

def Item.toNat (wanted : String) (limit : Nat) (path : KeyPath) (item : Item Nat) :
    Except Problem Nat :=
  let wrong := item.unexpected path wanted
  match item.event with
  | .scalar s =>
      if s.style == .plain || (s.style == .literal && s.hasTag .int) then
        match natural? s.text with
        | none => .error wrong
        | some n =>
            if n < limit then .ok n
            else if n < Nat.pow 2 64 then
              .error (item.problem path (wrongValue (integerWords n) wanted))
            else .error wrong
      else .error wrong
  | _ => .error wrong

def Item.toBool (path : KeyPath) (item : Item Nat) : Except Problem Bool :=
  let wrong := item.unexpected path "a boolean"
  match item.event with
  | .scalar s =>
      if s.style == .plain || (s.style == .literal && s.hasTag .bool) then
        match bool? s.text with
        | some b => .ok b
        | none => .error wrong
      else .error wrong
  | _ => .error wrong

def Item.toText (wanted : String) (path : KeyPath) (item : Item Nat) : Except Problem Text :=
  match item.event with
  | .scalar s => .ok s.text
  | _ => .error (item.unexpected path wanted)

def Item.toUnit (path : KeyPath) (item : Item Nat) : Except Problem Unit :=
  match item.event with
  | .scalar s =>
      if s.style == .plain && (s.text.isEmpty || isNull s.text) then .ok ()
      else .error (item.problem path (wrongValue (stringWords s.text) "null"))
  | event => .error (item.problem path (event.mismatch "unit"))

def Item.toChoice {α : Type} (choice? : Text → Option α) (expected : String) (path : KeyPath)
    (item : Item Nat) : Except Problem α := do
  let unknown (name : Text) : String :=
    s!"unknown variant `{String.ofList name}`, expected {expected}"
  let tag := match item.event with
    | .scalar s => ownTag? s.tag
    | .listStart tag => ownTag? tag
    | .mapStart tag => ownTag? tag
    | _ => none
  match tag with
  | some name =>
      let some a := choice? name | throw (.value (unknown name) none)
      item.toUnit path
      return a
  | none =>
      let name ← item.toText "a YAML tag starting with '!'" path
      let some a := choice? name | throw (item.problem path (unknown name))
      return a

def Item.toOption {α : Type} (read : Item Nat → Except Problem α) (item : Item Nat) :
    Except Problem (Option α) :=
  match item.event with
  | .scalar s =>
      if s.style ≠ .plain then (read item).map some
      else if s.hasTag .null then
        if isNull s.text then .ok none
        else .error (.value (wrongValue (stringWords s.text) "null") none)
      else if s.tag.isNone && (s.text.isEmpty || isNull s.text) then .ok none
      else (read item).map some
  | _ => (read item).map some

namespace Document

def value {α : Type} (d : Document) (read : Item Nat → Except Problem α) :
    Items → Except Problem (α × Items)
  | [] => .error d.ending
  | item :: rest =>
      match item.event with
      | .alias n =>
          match d.target n with
          | [] => .error d.ending
          | node :: _ => (read node).map (·, rest)
      | _ => (read item).map (·, rest)

def pass (d : Document) : Nat → Items → Except Problem Items
  | _, [] => .error d.ending
  | depth, item :: rest =>
      let depth := match item.event with
        | .listStart _ | .mapStart _ => depth + 1
        | .listEnd | .mapEnd => depth - 1
        | _ => depth
      if depth = 0 then .ok rest else pass d depth rest

structure Entries (σ κ : Type) where
  key : Item Nat → Except Problem κ
  entry : σ → κ → KeyPath → Items → Except Problem (σ × Items)

def entriesFrom {σ κ : Type} (d : Document) (path : KeyPath) (e : Entries σ κ) :
    Nat → σ → Items → Except Problem (σ × Items)
  | 0, _, _ => .error d.ending
  | _, _, [] => .error d.ending
  | n + 1, s, item :: rest => do
      if item.event = .mapEnd then return (s, rest)
      let (key, after) ← d.value e.key (item :: rest)
      let written := match item.event with
        | .scalar k => some k.text
        | _ => none
      let (s, after) ← e.entry s key (path ++ [written]) after
      entriesFrom d path e n s after

def mapAt {σ κ : Type} (d : Document) (wanted : String) (path : KeyPath) (e : Entries σ κ) (s : σ) :
    Items → Except Problem (σ × Items)
  | [] => .error d.ending
  | item :: rest =>
      match item.event with
      | .mapStart _ =>
          (d.entriesFrom path e rest.length s rest).mapError (·.locate path item.mark)
      | .scalar k =>
          if k.style == .plain && k.text.isEmpty then .ok (s, rest)
          else .error (item.unexpected path wanted)
      | _ => .error (item.unexpected path wanted)

def map {σ κ : Type} (d : Document) (wanted : String) (path : KeyPath) (e : Entries σ κ) (s : σ)
    (items : Items) : Except Problem (σ × Items) :=
  match items with
  | { event := .alias n, .. } :: rest =>
      (d.mapAt wanted path e s (d.target n)).map fun (s, _) => (s, rest)
  | _ => d.mapAt wanted path e s items

def read {α : Type} (d : Document) (root : Items → Except Problem (α × Items)) :
    Except Problem α := do
  let (a, _) ← root d.items
  if let some p := d.problem then throw p
  if !d.isLast then
    throw (.whole "deserializing from YAML containing more than one document is not supported")
  return a

end Document

end CrossAssembler.Yaml
