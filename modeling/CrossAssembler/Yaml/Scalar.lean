import CrossAssembler.Decimal.Shortest
import CrossAssembler.Text.Numeral
import CrossAssembler.Text.Quoted
import CrossAssembler.Yaml.Event

namespace CrossAssembler.Yaml

def isNull (t : Text) : Bool :=
  ["~", "null", "Null", "NULL"].any fun s => s.toList == t

def bool? (t : Text) : Option Bool :=
  if ["true", "True", "TRUE"].any fun s => s.toList == t then some true
  else if ["false", "False", "FALSE"].any fun s => s.toList == t then some false
  else none

def digits? (base : Nat) (t : Text) : Option Nat :=
  if t.isEmpty then none else Text.readDigits? base 0 t

def isZeroLed (t : Text) : Bool :=
  let t := match t with
    | '-' :: t => t
    | '+' :: t => t
    | t => t
  match t with
  | '0' :: c :: t => (c :: t).all Char.isDigit
  | _ => false

def magnitude? (t : Text) : Option Nat :=
  match t with
  | '0' :: 'x' :: r => digits? 16 r
  | '0' :: 'o' :: r => digits? 8 r
  | '0' :: 'b' :: r => digits? 2 r
  | _ => if isZeroLed t then none else digits? 10 t

def natural? : Text → Option Nat
  | '+' :: t => magnitude? t
  | t => magnitude? t

def integer? : Text → Option Int
  | '-' :: t =>
      (magnitude? t).bind fun n => if n ≤ Nat.pow 2 127 then some (-(n : Int)) else none
  | t => (natural? t).bind fun n => if n < Nat.pow 2 128 then some (n : Int) else none

structure Fraction where
  negative : Bool
  value : Decimal.Scaled
deriving DecidableEq, Repr

def exponent? : Text → Option Int
  | [] => some 0
  | e :: t =>
      if e == 'e' || e == 'E' then
        match t with
        | '-' :: t => (digits? 10 t).map fun n => -(n : Int)
        | '+' :: t => (digits? 10 t).map Int.ofNat
        | t => (digits? 10 t).map Int.ofNat
      else none

def scaled? (t : Text) : Option Decimal.Scaled := do
  let whole := t.takeWhile Char.isDigit
  let t := t.drop whole.length
  let (part, t) := match t with
    | '.' :: t => (t.takeWhile Char.isDigit, t.dropWhile Char.isDigit)
    | t => ([], t)
  if whole.isEmpty && part.isEmpty then none
  let exponent ← exponent? t
  let digits ← Text.readDigits? 10 0 (whole ++ part)
  return { digits, exponent := exponent - part.length }

def fraction? : Text → Option Fraction
  | '-' :: t => (scaled? t).map fun s => ⟨true, s⟩
  | '+' :: t => (scaled? t).map fun s => ⟨false, s⟩
  | t => (scaled? t).map fun s => ⟨false, s⟩

def floating? (t : Text) : Option Text :=
  let infinite := [".inf", ".Inf", ".INF"]
  if infinite.any fun s => s.toList == t || ("+" ++ s).toList == t then some "inf".toList
  else if infinite.any fun s => ("-" ++ s).toList == t then some "-inf".toList
  else if [".nan", ".NaN", ".NAN"].any fun s => s.toList == t then some "NaN".toList
  else do
    let f ← fraction? t
    let b ← f.value.nearest?
    return (if f.negative then ['-'] else []) ++ b.text

inductive Kind where
  | bool | int | float | null
deriving DecidableEq, Repr

def Kind.tag : Kind → String
  | .bool => "tag:yaml.org,2002:bool"
  | .int => "tag:yaml.org,2002:int"
  | .float => "tag:yaml.org,2002:float"
  | .null => "tag:yaml.org,2002:null"

def Kind.all : List Kind :=
  [.bool, .int, .float, .null]

def Scalar.hasTag (s : Scalar) (k : Kind) : Bool :=
  s.tag == some k.tag.toList

def Scalar.kind? (s : Scalar) : Option Kind :=
  Kind.all.find? s.hasTag

def ownTag? : Option Text → Option Text
  | some ('!' :: c :: t) => some (c :: t)
  | _ => none

def integerWords (i : Int) : String :=
  match i with
  | .ofNat n =>
      if n < Nat.pow 2 64 then s!"integer `{n}`" else s!"integer `{n}` as u128"
  | .negSucc n =>
      if n < Nat.pow 2 63 then s!"integer `-{n + 1}`" else s!"integer `-{n + 1}` as i128"

def floatingWords (t : Text) : String :=
  s!"floating point `{String.ofList t}`"

def stringWords (t : Text) : String :=
  s!"string {Text.quoted t}"

def plainWords (t : Text) : String :=
  if t.isEmpty || isNull t then "unit value"
  else
    match bool? t, integer? t with
    | some b, _ => s!"boolean `{b}`"
    | none, some i => integerWords i
    | none, none =>
        match if isZeroLed t then none else floating? t with
        | some f => floatingWords f
        | none => stringWords t

def wrongType (found wanted : String) : String :=
  s!"invalid type: {found}, expected {wanted}"

def wrongValue (found wanted : String) : String :=
  s!"invalid value: {found}, expected {wanted}"

def Scalar.mismatch (s : Scalar) (wanted : String) : String :=
  let unfit (kind : String) := wrongValue (stringWords s.text) kind
  match s.kind? with
  | some .bool =>
      match bool? s.text with
      | some b => wrongType s!"boolean `{b}`" wanted
      | none => unfit "a boolean"
  | some .int =>
      match integer? s.text with
      | some i => wrongType (integerWords i) wanted
      | none => unfit "an integer"
  | some .float =>
      match floating? s.text with
      | some f => wrongType (floatingWords f) wanted
      | none => unfit "a float"
  | some .null => if isNull s.text then wrongType "unit value" wanted else unfit "null"
  | none =>
      let untagged := s.tag.all fun t => t.head? == some '!'
      if s.style == .plain && untagged then wrongType (plainWords s.text) wanted
      else wrongType (stringWords s.text) wanted

end CrossAssembler.Yaml
