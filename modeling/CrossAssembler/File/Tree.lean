import CrossAssembler.Files

namespace CrossAssembler

inductive Refusal where
  | noEntry
  | noMemory
  | notDirectory
  | isDirectory
  | noSpace
deriving DecidableEq, Repr

def Refusal.message : Refusal → String
  | .noEntry => "No such file or directory (os error 2)"
  | .noMemory => "Cannot allocate memory (os error 12)"
  | .notDirectory => "Not a directory (os error 20)"
  | .isDirectory => "Is a directory (os error 21)"
  | .noSpace => "No space left on device (os error 28)"

inductive Entry where
  | directory
  | file (bytes : List UInt8)
  | fullDevice
deriving DecidableEq, Repr

abbrev Location := List Text

structure FileTree where
  current : Location
  entries : List (Location × Entry)
deriving DecidableEq, Repr

namespace FileTree

def get? (tree : FileTree) (place : Location) : Option Entry :=
  if place.isEmpty then some .directory else tree.entries.lookup place

def enter (tree : FileTree) (dir : Location) (name : Text) : Except Refusal Location :=
  if Path.isIdle name then .ok dir
  else if name = ['.', '.'] then .ok dir.dropLast
  else
    match tree.get? (dir ++ [name]) with
    | none => .error .noEntry
    | some .directory => .ok (dir ++ [name])
    | some _ => .error .notDirectory

def walk (tree : FileTree) (dir : Location) (names : List Text) : Except Refusal Location :=
  names.foldlM tree.enter dir

def origin (tree : FileTree) (path : Text) : Location :=
  if path.head? = some '/' then [] else tree.current

def isDirectory (tree : FileTree) (path : Text) : Bool :=
  !path.isEmpty && (tree.walk (tree.origin path) (Path.pieces path)).isOk

def fetch (tree : FileTree) (path : Text) : Fetched :=
  if path.isEmpty then .notOpened Refusal.noEntry.message
  else
    let names := Path.pieces path
    match tree.walk (tree.origin path) names.dropLast with
    | .error r => .notOpened r.message
    | .ok dir =>
        let name := names.getLastD []
        if Path.isIdle name || name == ['.', '.'] then .notRead Refusal.isDirectory.message
        else
          match tree.get? (dir ++ [name]) with
          | none => .notOpened Refusal.noEntry.message
          | some .directory => .notRead Refusal.isDirectory.message
          | some .fullDevice => .notRead Refusal.noMemory.message
          | some (.file bytes) => .content bytes

def createAt (tree : FileTree) (path : Text) : Except Refusal Location :=
  if path.isEmpty then .error .noEntry
  else
    let names := Path.pieces path
    let slashed := path.getLast? = some '/'
    let names := if slashed then (names.reverse.dropWhile List.isEmpty).reverse else names
    match tree.walk (tree.origin path) names.dropLast with
    | .error r => .error r
    | .ok dir =>
        let name := names.getLastD []
        if slashed || Path.isIdle name || name == ['.', '.'] then .error .isDirectory
        else if tree.get? (dir ++ [name]) = some .directory then .error .isDirectory
        else .ok (dir ++ [name])

def putFile (tree : FileTree) (place : Location) (bytes : List UInt8) : FileTree :=
  { tree with entries := (place, .file bytes) :: tree.entries.filter (·.1 != place) }

def create (tree : FileTree) (path : Text) : Except Refusal Location × FileTree :=
  match tree.createAt path with
  | .error r => (.error r, tree)
  | .ok place =>
      if tree.get? place = some .fullDevice then (.ok place, tree)
      else (.ok place, tree.putFile place [])

def write (tree : FileTree) (place : Location) (bytes : List UInt8) :
    Except Refusal Unit × FileTree :=
  match tree.get? place with
  | some (.file old) => (.ok (), tree.putFile place (old ++ bytes))
  | _ => (if bytes.isEmpty then .ok () else .error .noSpace, tree)

def access : Files (StateM FileTree) Location where
  fetch path tree := (tree.fetch path, tree)
  isDirectory path tree := (tree.isDirectory path, tree)
  create path tree := ((tree.create path).1.mapError Refusal.message, (tree.create path).2)
  write place bytes tree :=
    ((tree.write place bytes).1.mapError Refusal.message, (tree.write place bytes).2)

def empty : FileTree :=
  let home : Location := ["work".toList]
  { current := home, entries := [(home, .directory)] }

def add (tree : FileTree) (path : Text) (e : Entry) : FileTree :=
  let names := (Path.pieces path).filter (!Path.isIdle ·)
  let place := tree.current ++ names
  let above := (List.range names.length).tail.map fun n => tree.current ++ names.take n
  let missing := above.filter fun dir => (tree.get? dir).isNone
  let kept := tree.entries.filter (·.1 != place)
  { tree with entries := (place, e) :: missing.map (·, .directory) ++ kept }

def files (tree : FileTree) : List (Text × List UInt8) :=
  tree.entries.filterMap fun (place, e) =>
    match e with
    | .file bytes =>
        if tree.current.isPrefixOf place then
          some (Path.join (place.drop tree.current.length), bytes)
        else none
    | _ => none

def changes (before after : FileTree) : List (Text × List UInt8) :=
  (after.files.filter fun f => !before.files.contains f).mergeSort fun a b =>
    String.ofList a.1 ≤ String.ofList b.1

end FileTree

end CrossAssembler
