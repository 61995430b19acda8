import CrossAssembler.Image

namespace CrossAssembler

inductive Format where
  | bin | coe | mif
deriving DecidableEq, Repr

namespace Format

def all : List Format :=
  [.bin, .coe, .mif]

def name : Format → String
  | .bin => "bin"
  | .coe => "coe"
  | .mif => "mif"

def ofName? (s : String) : Option Format :=
  all.find? (·.name == s)

end Format

namespace Image

def stream (image : Image) : List Bool :=
  let places := (List.range image.bus.data).reverse
  image.words.flatMap fun w => places.map w.testBit

def ofBits : List Bool → Nat
  | [] => 0
  | b :: bs => b.toNat + 2 * ofBits bs

def packOnto (done : List Nat) (bits : List Bool) : List Nat :=
  match bits with
  | [] => done.reverse
  | b :: bs => packOnto (ofBits ((b :: bs).take 8) :: done) ((b :: bs).drop 8)
termination_by bits.length

def pack (bits : List Bool) : List Nat :=
  packOnto [] bits

def dropTrailingZeros (bytes : List Nat) : List Nat :=
  (bytes.reverse.dropWhile (· == 0)).reverse

def binBytes (image : Image) : List Nat :=
  dropTrailingZeros (pack image.stream)

def mifText (image : Image) : Text :=
  image.bits.flatMap (· ++ ['\n'])

def coeText (image : Image) : Text :=
  "memory_initialization_radix=2;\nmemory_initialization_vector=\n".toList ++
    image.bits.flatMap (· ++ [',', '\n'])

def text? (image : Image) : Format → Option Text
  | .bin => none
  | .coe => some image.coeText
  | .mif => some image.mifText

def render (image : Image) : Format → List UInt8
  | .bin => image.binBytes.map (·.toUInt8)
  | .coe => image.coeText.map (·.toNat.toUInt8)
  | .mif => image.mifText.map (·.toNat.toUInt8)

end Image

end CrossAssembler
