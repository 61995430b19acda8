import CrossAssembler.Instruction.Opcodes
import CrossAssembler.Section.Kind
import CrossAssembler.Text.Numeral

namespace CrossAssembler

inductive Directive where
  | head | code | main | interrupt | org
deriving DecidableEq, Repr

namespace Directive

def name : Directive → String
  | .head => "head"
  | .code => "code"
  | .main => "main"
  | .interrupt => "interrupt"
  | .org => "org"

def opening : Directive → Text
  | .head => ".HEAD".toList
  | .code => ".CODE".toList
  | .main => ".MAIN".toList
  | .interrupt => ".INTERRUPT".toList
  | .org => ".ORG".toList

def closing : Directive → Text
  | .head => ".ENDHEAD".toList
  | .code => ".ENDCODE".toList
  | .main => ".ENDMAIN".toList
  | .interrupt => ".ENDINTERRUPT".toList
  | .org => ".ENDORG".toList

end Directive

inductive Fault where
  | missingBlock (block : Directive)
  | unclosedBlock (block : Directive)
  | missingOrgLocation (declaration : Text)
  | invalidOrgLocation (location : Text)
  | emptyLabel
  | invalidLabel (name : Text)
  | definedAsConstant (name : Text)
  | redefinedLabel (name : Text)
  | undefinedLabel (name : Text)
  | invalidConstant (name value : Text)
  | invalidParameter (mnemonic : Mnemonic) (param : Text)
  | unknownOperation (operation : Text)
  | unsupportedMode (mnemonic : Mnemonic) (param : Text) (mode : Mode)
  | unexpectedParameter (mnemonic : Mnemonic) (param : Text)
  | missingParameter (mnemonic : Mnemonic)
  | malformed (code : Text)
  | overflow (kind : SectionKind) (limit : Nat)
  | overlap (first second : SectionKind)
  | imageTooLarge (words limit : Nat)
deriving DecidableEq, Repr

namespace Fault

private def quoted (t : Text) : String :=
  "`" ++ String.ofList t ++ "`"

def message : Fault → String
  | .missingBlock block => s!"The `.{block.name}` section is not present in the file"
  | .unclosedBlock block =>
      s!"The `.{block.name}` section is not properly closed with `.end{block.name}`"
  | .missingOrgLocation declaration =>
      s!"Cannot find the location of the `.org` section declared in: {quoted declaration}"
  | .invalidOrgLocation location => s!"The `.org` section location {quoted location} is invalid"
  | .emptyLabel => "The label name is empty"
  | .invalidLabel name =>
      s!"The label name {quoted name} is invalid, it cannot contain ¬, $, %, # or :"
  | .definedAsConstant name =>
      s!"The label {quoted name} is already defined as a constant label"
  | .redefinedLabel name => s!"Re-defined label: {quoted name}"
  | .undefinedLabel name => s!"Undefined label: {quoted name}"
  | .invalidConstant name value =>
      s!"The value {quoted value} of the label {quoted name} is invalid"
  | .invalidParameter mnemonic param =>
      s!"The parameter of the instruction `{mnemonic.name} {String.ofList param}` is invalid"
  | .unknownOperation operation => s!"Unknown operation: {quoted operation}"
  | .unsupportedMode mnemonic param mode =>
      s!"The instruction `{mnemonic.name}` does not support {mode.name} addressing, " ++
        s!"found {quoted param}"
  | .unexpectedParameter mnemonic param =>
      s!"The instruction `{mnemonic.name}` cannot accept parameters, found {quoted param}"
  | .missingParameter mnemonic => s!"The instruction `{mnemonic.name}` requires a parameter"
  | .malformed code => s!"Syntax Error: Cannot parse {quoted code}"
  | .overflow kind limit =>
      let bound := String.ofList (Text.paddedNumeral 16 4 limit)
      s!"The {kind.title} does not fit in memory, it must end before 0x{bound}"
  | .overlap first second => s!"The {first.title} overlaps with the {second.title}"
  | .imageTooLarge words limit =>
      s!"The image spans {words} words, more than the {limit} words that can be emitted"

end Fault

inductive Region where
  | head
  | code (kind : SectionKind)
deriving DecidableEq, Repr

def Region.title : Region → String
  | .head => "head section"
  | .code kind => kind.title

structure Place where
  region : Region
  line : Nat
deriving DecidableEq, Repr

structure Error where
  fault : Fault
  place : Option Place := none
deriving DecidableEq, Repr

namespace Fault

def bare (f : Fault) : Error :=
  { fault := f }

def onLine (f : Fault) (region : Region) (line : Nat) : Error :=
  { fault := f, place := some ⟨region, line⟩ }

end Fault

def Error.message (e : Error) : String :=
  match e.place with
  | none => e.fault.message
  | some p => s!"Error at line {p.line} of {p.region.title}: {e.fault.message}"

end CrossAssembler
