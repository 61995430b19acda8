import CrossAssembler.Text.Blank

namespace CrossAssembler.Path

def pieces (path : Text) : List Text :=
  path.splitOn '/'

def join (ps : List Text) : Text :=
  List.intercalate ['/'] ps

def isIdle (piece : Text) : Bool :=
  piece.isEmpty || piece == ['.']

def core : List Text → List Text
  | [] => []
  | p :: ps => p :: (ps.reverse.dropWhile isIdle).reverse

def fileName? (path : Text) : Option Text :=
  match (core (pieces path)).getLast? with
  | none => none
  | some name => if isIdle name || name == ['.', '.'] then none else some name

def nameExtension? (name : Text) : Option Text :=
  let ext := (name.reverse.takeWhile (· != '.')).reverse
  let stem := name.take (name.length - ext.length - 1)
  if stem.isEmpty then none else some ext

def extension? (path : Text) : Option Text :=
  (fileName? path).bind nameExtension?

def withExtension (path ext : Text) : Text :=
  if extension? path = some ext then path else path ++ '.' :: ext

def parent (path : Text) : Text :=
  match core (core (pieces path)).dropLast with
  | [[]] => ['/']
  | ps => join ps

end CrossAssembler.Path
