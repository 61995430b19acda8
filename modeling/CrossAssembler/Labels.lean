import CrossAssembler.Event
import CrossAssembler.Literal
import CrossAssembler.Traced

namespace CrossAssembler

abbrev NameTable (α : Type) := List (Text × α)

namespace NameTable

variable {α : Type}

def get? (name : Text) : NameTable α → Option α
  | [] => none
  | (other, a) :: t => if other = name then some a else get? name t

def put (name : Text) (a : α) : NameTable α → NameTable α
  | [] => [(name, a)]
  | (other, b) :: t => if other = name then (name, a) :: t else (other, b) :: put name a t

theorem get?_put_self (t : NameTable α) (name : Text) (a : α) :
    (t.put name a).get? name = some a := by
  induction t with
  | nil => simp [put, get?]
  | cons entry t ih =>
      obtain ⟨other, b⟩ := entry
      by_cases h : other = name
      · simp [put, get?, h]
      · simpa [put, get?, h] using ih

theorem get?_put_of_ne (t : NameTable α) {name other : Text} (a : α) (h : other ≠ name) :
    (t.put name a).get? other = t.get? other := by
  induction t with
  | nil => simp [put, get?, h.symm]
  | cons entry t ih =>
      obtain ⟨key, b⟩ := entry
      by_cases hk : key = name
      · subst hk
        simp [put, get?, h.symm]
      · simp [put, get?, hk, ih]

end NameTable

structure Constant where
  line : Nat
  value : Literal
deriving DecidableEq, Repr

structure CodeLabel where
  line : Nat
  kind : SectionKind
  address : Nat
deriving DecidableEq, Repr

structure Labels where
  consts : NameTable Constant := []
  codes : NameTable CodeLabel := []
deriving DecidableEq, Repr

def checkName (name : Text) : Except Fault Unit :=
  if name.isEmpty then .error .emptyLabel
  else if name.any isReserved then .error (.invalidLabel name)
  else .ok ()

namespace Labels

def empty : Labels := {}

def constant? (ls : Labels) (name : Text) : Option Literal :=
  (ls.consts.get? name).map (·.value)

def address? (ls : Labels) (name : Text) : Option Nat :=
  (ls.codes.get? name).map (·.address)

def define (ls : Labels) (name : Text) (line : Nat) (value : Literal) :
    Labels × Option Constant :=
  ({ ls with consts := ls.consts.put name ⟨line, value⟩ }, ls.consts.get? name)

def bind (ls : Labels) (name : Text) (line : Nat) (kind : SectionKind) (address : Nat) :
    Traced Event Fault Labels :=
  if (ls.consts.get? name).isSome then .ofExcept (.error (.definedAsConstant name))
  else if (ls.codes.get? name).isSome then .ofExcept (.error (.redefinedLabel name))
  else do
    .tell (.bound name address kind)
    return { ls with codes := ls.codes.put name ⟨line, kind, address⟩ }

end Labels

end CrossAssembler
