import CrossAssembler.Labels
import CrossAssembler.Source

namespace CrossAssembler.Constants

def assignment? (code : Text) : Option (Text × Text) :=
  (code.cutAt? (· == '=')).map fun (name, value) => (name.squeeze, value.squeeze)

def check (name value : Text) : Except Fault Literal := do
  checkName name
  match Literal.parse? value with
  | none => throw (.invalidConstant name value)
  | some literal => return literal

def collect : Labels → List SourceLine → Traced Event Error Labels
  | labels, [] => return labels
  | labels, line :: lines =>
      match assignment? line.text with
      | none => collect labels lines
      | some (name, value) => do
          let literal ← .ofExcept ((check name value).mapError (·.onLine .head line.number))
          let (labels', previous) := labels.define name line.number literal
          if let some old := previous then
            Traced.tell (.overridden name line.number old.line)
          collect labels' lines

end CrossAssembler.Constants
