import CrossAssembler.File.Path

namespace CrossAssembler

inductive Fetched where
  | notOpened (cause : String)
  | notRead (cause : String)
  | content (bytes : List UInt8)
deriving DecidableEq, Repr

inductive StoreError where
  | missingDirectory (directory : Text)
  | create (cause : String)
  | write (cause : String)
deriving DecidableEq, Repr

structure Files (m : Type → Type) (η : Type) where
  fetch : Text → m Fetched
  isDirectory : Text → m Bool
  create : Text → m (Except String η)
  write : η → List UInt8 → m (Except String Unit)

namespace Files

variable {m : Type → Type} {η : Type}

def hasParent [Monad m] (files : Files m η) (path : Text) : m Bool :=
  let dir := Path.parent path
  if dir.isEmpty then pure true else files.isDirectory dir

def store [Monad m] (files : Files m η) (path : Text) (bytes : List UInt8) :
    m (Except StoreError Unit) := do
  if !(← files.hasParent path) then return .error (.missingDirectory (Path.parent path))
  match ← files.create path with
  | .error cause => return .error (.create cause)
  | .ok handle => return (← files.write handle bytes).mapError .write

end Files

end CrossAssembler
