import CrossAssembler.Text.Numeral
import CrossAssembler.Text.Printable

namespace CrossAssembler.Text

def quotedChar (c : Char) : Text :=
  match c with
  | '\x00' => ['\\', '0']
  | '\t' => ['\\', 't']
  | '\r' => ['\\', 'r']
  | '\n' => ['\\', 'n']
  | '\x22' => ['\\', '\x22']
  | '\\' => ['\\', '\\']
  | c =>
      if isPrintable c then [c]
      else ['\\', 'u', '\x7b'] ++ Nat.toDigits 16 c.toNat ++ ['\x7d']

def quoted (t : Text) : String :=
  String.ofList ('\x22' :: t.flatMap quotedChar ++ ['\x22'])

end CrossAssembler.Text
