import CrossAssembler.Yaml.Problem

namespace CrossAssembler.Yaml

def isAllowed (n : Nat) : Bool :=
  n == 0x9 || n == 0xA || n == 0xD || (0x20 ≤ n && n ≤ 0x7E) || n == 0x85 ||
    (0xA0 ≤ n && n ≤ 0xD7FF) || (0xE000 ≤ n && n ≤ 0xFFFD) || (0x10000 ≤ n && n ≤ 0x10FFFF)

def controlCharacter : String := "control characters are not allowed"

def checkFrom (offset : Nat) : Text → Except Problem Unit
  | [] => .ok ()
  | c :: t =>
      if isAllowed c.toNat then checkFrom (offset + c.utf8Size) t
      else .error (.encoding controlCharacter offset)

def sequenceLength (lead : Nat) : Option Nat :=
  if lead < 0x80 then some 1
  else if lead < 0xC0 then none
  else if lead < 0xE0 then some 2
  else if lead < 0xF0 then some 3
  else if lead < 0xF8 then some 4
  else none

def leadBits (length lead : Nat) : Nat :=
  match length with
  | 1 => lead
  | 2 => lead % 0x20
  | 3 => lead % 0x10
  | _ => lead % 0x08

def trailBits (offset value : Nat) : List UInt8 → Except Problem Nat
  | [] => .ok value
  | b :: bs =>
      if b.toNat / 0x40 = 2 then trailBits (offset + 1) (value * 0x40 + b.toNat % 0x40) bs
      else .error (.encoding "invalid trailing UTF-8 octet" offset)

def leastOfLength : Nat → Nat
  | 2 => 0x80
  | 3 => 0x800
  | 4 => 0x10000
  | _ => 0

def decodeSequence (offset : Nat) (length : Nat) (bytes : List UInt8) : Except Problem Char := do
  if bytes.length < length then throw (.encoding "incomplete UTF-8 octet sequence" offset)
  let lead := (bytes.head?.map UInt8.toNat).getD 0
  let value ← trailBits (offset + 1) (leadBits length lead) ((bytes.take length).drop 1)
  if value < leastOfLength length then
    throw (.encoding "invalid length of a UTF-8 sequence" offset)
  if !value.isValidChar then throw (.encoding "invalid Unicode character" offset)
  if !isAllowed value then throw (.encoding controlCharacter offset)
  return Char.ofNat value

def decodeFrom : Nat → Nat → List UInt8 → Except Problem Text
  | 0, _, _ => .ok []
  | _, _, [] => .ok []
  | n + 1, offset, b :: bs =>
      match sequenceLength b.toNat with
      | none => .error (.encoding "invalid leading UTF-8 octet" offset)
      | some length => do
          let c ← decodeSequence offset length (b :: bs)
          let t ← decodeFrom n (offset + length) ((b :: bs).drop length)
          return c :: t

def decode (bytes : List UInt8) : Except Problem Text :=
  decodeFrom bytes.length 0 bytes

def checked (t : Text) : Except Problem Text := do
  checkFrom 0 t
  return t

end CrossAssembler.Yaml
