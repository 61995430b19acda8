import CrossAssembler.Command.Run

namespace CrossAssembler.Command

def causeOf : IO.Error → String
  | .noFileOrDirectory .. => Refusal.noEntry.message
  | .inappropriateType _ code details => s!"{details} (os error {code})"
  | .permissionDenied _ code details => s!"{details} (os error {code})"
  | .resourceExhausted _ code details => s!"{details} (os error {code})"
  | .invalidArgument _ code details => s!"{details} (os error {code})"
  | .otherError code details => s!"{details} (os error {code})"
  | e => toString e

def fetchFile (path : Text) : IO Fetched := do
  match ← (IO.FS.Handle.mk (String.ofList path) .read).toBaseIO with
  | .error e => return .notOpened (causeOf e)
  | .ok handle =>
      match ← handle.readBinToEnd.toBaseIO with
      | .error e => return .notRead (causeOf e)
      | .ok bytes => return .content bytes.toList

-- A directory is what can be opened through its own entry for itself.
def directoryExists (path : Text) : IO Bool := do
  match ← (IO.FS.Handle.mk (String.ofList (path ++ ['/', '.'])) .read).toBaseIO with
  | .error _ => return false
  | .ok _ => return true

def createFile (path : Text) : IO (Except String IO.FS.Handle) := do
  match ← (IO.FS.Handle.mk (String.ofList path) .write).toBaseIO with
  | .error e => return .error (causeOf e)
  | .ok handle => return .ok handle

def writeFile (handle : IO.FS.Handle) (bytes : List UInt8) : IO (Except String Unit) := do
  let write : IO Unit := do
    handle.write ⟨bytes.toArray⟩
    handle.flush
  match ← write.toBaseIO with
  | .error e => return .error (causeOf e)
  | .ok () => return .ok ()

def machineFiles : Files IO IO.FS.Handle where
  fetch := fetchFile
  isDirectory := directoryExists
  create := createFile
  write := writeFile

end CrossAssembler.Command

open CrossAssembler Command in
def main (args : List String) : IO UInt32 := do
  match parse? args with
  | none =>
      IO.eprintln usageText
      return 2
  | some invocation =>
      let outcome ← invocation.request.runOn readSettings machineFiles
      for e in outcome.events invocation.level do
        IO.eprintln s!"{e.level.name} {e.message}"
      IO.print outcome.report
      return outcome.exit.toUInt32
