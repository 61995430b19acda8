namespace CrossAssembler

abbrev Text := List Char

namespace Text

-- The characters with the White_Space property.
def isBlank (c : Char) : Bool :=
  let n := c.toNat
  (0x9 ≤ n && n ≤ 0xD) || n == 0x20 || n == 0x85 || n == 0xA0 || n == 0x1680 ||
    (0x2000 ≤ n && n ≤ 0x200A) || n == 0x2028 || n == 0x2029 || n == 0x202F || n == 0x205F ||
    n == 0x3000

def trimStart (t : Text) : Text :=
  t.dropWhile isBlank

def trimEnd (t : Text) : Text :=
  (t.reverse.dropWhile isBlank).reverse

def trim (t : Text) : Text :=
  trimEnd (trimStart t)

def squeeze (t : Text) : Text :=
  t.filter (fun c => !isBlank c)

theorem not_isBlank_of_mem_squeeze {c : Char} {t : Text} (h : c ∈ squeeze t) :
    isBlank c = false := by
  simpa using (List.mem_filter.1 h).2

def words (t : Text) : List Text :=
  (t.splitOnP isBlank).filter (fun w => !w.isEmpty)

def cutAt? (p : Char → Bool) : Text → Option (Text × Text)
  | [] => none
  | c :: t => if p c then some ([], t) else (cutAt? p t).map fun (a, b) => (c :: a, b)

end Text

end CrossAssembler
