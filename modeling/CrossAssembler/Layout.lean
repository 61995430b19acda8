import CrossAssembler.Section

namespace CrossAssembler.Layout

def intruded? (s : Section) : Option SectionKind :=
  if s.kind.isFixed then none
  else if s.base < mainEnd then some .main
  else if s.base < interruptEnd then some .interrupt
  else none

def collision? (sections : List Section) : Option (Section × Section) :=
  sections.zipIdx.findSome? fun (a, i) =>
    sections.zipIdx.findSome? fun (b, j) =>
      if i ≠ j ∧ ¬(a.kind.isFixed ∧ b.kind.isFixed) ∧ b.contains a.base then some (a, b) else none

def validate (sections : List Section) : Except Fault Unit :=
  match sections.findSome? fun s => (intruded? s).map (s.kind, ·) with
  | some (kind, window) => .error (.overlap kind window)
  | none =>
      match collision? sections with
      | some (a, b) => .error (.overlap a.kind b.kind)
      | none => .ok ()

end CrossAssembler.Layout
