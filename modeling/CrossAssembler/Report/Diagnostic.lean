import CrossAssembler.Error
import CrossAssembler.Report.Style
import CrossAssembler.Settings
import CrossAssembler.Text.Line

namespace CrossAssembler

inductive Failure where
  | openFile (path cause : String)
  | parseConfig (path cause : String)
  | settings (error : SettingsError)
  | program (error : Error)
  | missingDirectory (directory : String)
  | createFile (path cause : String)
  | writeFile (path cause : String)
deriving DecidableEq, Repr

namespace Failure

def message : Failure → String
  | .openFile path _ => s!"Failed to open file: {path}"
  | .parseConfig path _ => s!"Failed to parse config file: {path}"
  | .settings e => e.message
  | .program e => e.message
  | .missingDirectory directory => s!"The directory `{directory}` does not exist"
  | .createFile path _ => s!"Failed to create file: {path}"
  | .writeFile path _ => s!"Failed to write file: {path}"

def causes : Failure → Option (List String)
  | .openFile _ cause => some [cause]
  | .parseConfig _ cause => some [cause]
  | .missingDirectory _ => some []
  | .createFile _ cause => some [cause]
  | .writeFile _ cause => some [cause]
  | .settings _ => none
  | .program _ => none

end Failure

namespace Report

def errorLine (message : String) : String :=
  alarming "error" ++ ": " ++ message

def pointerLine (place : String) : String :=
  "     " ++ blue "-->" ++ " " ++ underlined place

def barLine : String :=
  "      " ++ blue "|"

def rawLine (source : Text) (number : Nat) : Text :=
  (source.lines[number - 1]?).getD []

def placedError (file : String) (source : Text) (fault : Fault) (place : Place) : List String :=
  [errorLine fault.message,
    pointerLine s!"{file}:{place.line}" ++ s!" ({place.region.title})",
    barLine,
    " " ++ blue (right 4 (toString place.line) ++ " |") ++ " " ++
      String.ofList (rawLine source place.line),
    barLine]

def diagnostic (file : String) (source : Text) (failure : Failure) : List String :=
  match failure with
  | .program ⟨fault, some place⟩ => placedError file source fault place
  | _ =>
      match failure.causes with
      | some causes =>
          errorLine failure.message :: causes.map fun c => "  " ++ blue "caused by" ++ ": " ++ c
      | none => [errorLine failure.message, pointerLine file]

end Report

end CrossAssembler
