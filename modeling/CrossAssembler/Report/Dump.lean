import CrossAssembler.Assembly
import CrossAssembler.Report.Style

namespace CrossAssembler.Report

def ruleWidth : Nat := 56

def header (title : String) (column : Nat) : String :=
  rule column ++ "+------[" ++ title ++ "]" ++ rule (ruleWidth - title.utf8ByteSize)

def colouredCode (code : Text) : String :=
  if code.getLast? = some ':' then green (String.ofList code)
  else
    match code.cutAt? Text.isBlank with
    | none => red (String.ofList code)
    | some (op, rest) =>
        let param := rest.trim
        let colour := if param.head? = some '#' || param.hasMarker then yellow else green
        red (left 6 (String.ofList op)) ++ colour (String.ofList param)

def hexDigits (bits : Nat) : Nat :=
  (bits + 3) / 4

def hexadecimal (digits n : Nat) : String :=
  String.ofList (Text.paddedNumeral 16 digits n)

def codeColumn (bus : Bus) : Nat :=
  hexDigits bus.address + 3 + 3 * (hexDigits bus.data + 1)

def lineNumber (n : Nat) : String :=
  "| " ++ right 4 (toString n) ++ ": "

def constantLine (column : Nat) (name : Text) (c : Constant) : String :=
  let body := String.ofList name ++ " = " ++ String.ofList c.value.text
  left column "" ++ lineNumber c.line ++ yellow body

def rowWords (image : Image) (s : Section) (r : Row) : List Nat :=
  (image.words.drop (s.base + r.offset)).take r.size

def rowLine (image : Image) (s : Section) (r : Row) : String :=
  let column := codeColumn image.bus
  if r.size = 0 then left column "" ++ lineNumber r.line ++ colouredCode r.code
  else
    let address := hexadecimal (hexDigits image.bus.address) (s.base + r.offset)
    let words := (rowWords image s r).map (hexadecimal (hexDigits image.bus.data))
    let shown := "[" ++ address ++ "] " ++ " ".intercalate words
    left column shown ++ lineNumber r.line ++ "  " ++ colouredCode r.code

def sectionLines (image : Image) (s : Section) : List String :=
  header s.kind.title (codeColumn image.bus) :: s.rows.map (rowLine image s)

def dump (a : Assembly) : List String :=
  let column := codeColumn a.image.bus
  header "head" column :: a.labels.consts.map (fun (name, c) => constantLine column name c) ++
    a.sections.flatMap (sectionLines a.image) ++ [rule column ++ "+" ++ rule (ruleWidth + 8)]

end CrossAssembler.Report
