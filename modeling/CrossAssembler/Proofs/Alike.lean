import CrossAssembler.Assembly
import CrossAssembler.Proofs.Outcome

namespace CrossAssembler

namespace Outcome

variable {ε ε' α α' β β' : Type} {F : ε → ε' → Prop} {A : α → α' → Prop} {B : β → β' → Prop}

inductive Alike (F : ε → ε' → Prop) (A : α → α' → Prop) : Except ε α → Except ε' α' → Prop
  | ok {a : α} {a' : α'} (h : A a a') : Alike F A (.ok a) (.ok a')
  | error {e : ε} {e' : ε'} (h : F e e') : Alike F A (.error e) (.error e')

namespace Alike

variable {x : Except ε α} {y : Except ε' α'}

theorem refl (x : Except ε α) : Alike Eq Eq x x := by
  cases x with
  | ok a => exact .ok rfl
  | error e => exact .error rfl

theorem exists_ok {a : α} (h : Alike F A x y) (hx : x = .ok a) : ∃ a', y = .ok a' ∧ A a a' := by
  subst hx
  cases h with
  | ok ha => exact ⟨_, rfl, ha⟩

theorem imp {F' : ε → ε' → Prop} {A' : α → α' → Prop} (h : Alike F A x y)
    (hF : ∀ e e', F e e' → F' e e') (hA : ∀ a a', A a a' → A' a a') : Alike F' A' x y := by
  cases h with
  | ok ha => exact .ok (hA _ _ ha)
  | error he => exact .error (hF _ _ he)

theorem bind {f : α → Except ε β} {g : α' → Except ε' β'} (h : Alike F A x y)
    (hf : ∀ a a', A a a' → Alike F B (f a) (g a')) : Alike F B (x >>= f) (y >>= g) := by
  cases h with
  | ok ha => exact hf _ _ ha
  | error he => exact .error he

theorem mapError {δ δ' : Type} {D : δ → δ' → Prop} {f : ε → δ} {g : ε' → δ'} (h : Alike F A x y)
    (hf : ∀ e e', F e e' → D (f e) (g e')) : Alike D A (x.mapError f) (y.mapError g) := by
  cases h with
  | ok ha => exact .ok ha
  | error he => exact .error (hf _ _ he)

theorem mapM {f : α → Except ε β} {g : α' → Except ε' β'} {xs : List α} {ys : List α'}
    (h : List.Forall₂ A xs ys) (hf : ∀ a a', A a a' → Alike F B (f a) (g a')) :
    Alike F (List.Forall₂ B) (xs.mapM f) (ys.mapM g) := by
  induction h with
  | nil => exact .ok .nil
  | cons head _ ih =>
      rw [List.mapM_cons, List.mapM_cons]
      exact (hf _ _ head).bind fun _ _ hb => ih.bind fun _ _ hbs => .ok (.cons hb hbs)

end Alike

theorem map_eq_of_rel {γ : Type} {x : Option α} {y : Option α'} (h : Option.Rel A x y) {f : α → γ}
    {g : α' → γ} (hf : ∀ a a', A a a' → f a = g a') : x.map f = y.map g := by
  cases h with
  | some ha => exact congrArg some (hf _ _ ha)
  | none => rfl

theorem isSome_eq_of_rel {x : Option α} {y : Option α'} (h : Option.Rel A x y) :
    x.isSome = y.isSome := by
  cases h <;> rfl

end Outcome

namespace Traced

variable {τ τ' ε ε' α α' β β' : Type} {E : τ → τ' → Prop} {F : ε → ε' → Prop} {A : α → α' → Prop}
  {B : β → β' → Prop}

structure Alike (E : τ → τ' → Prop) (F : ε → ε' → Prop) (A : α → α' → Prop) (x : Traced τ ε α)
    (y : Traced τ' ε' α') : Prop where
  log : List.Forall₂ E x.log y.log
  result : Outcome.Alike F A x.result y.result

namespace Alike

variable {x : Traced τ ε α} {y : Traced τ' ε' α'}

theorem pure {a : α} {a' : α'} (h : A a a') :
    Alike E F A (Pure.pure a : Traced τ ε α) (Pure.pure a' : Traced τ' ε' α') :=
  ⟨.nil, .ok h⟩

theorem ofExcept {x : Except ε α} {y : Except ε' α'} (h : Outcome.Alike F A x y) :
    Alike E F A (.ofExcept x) (.ofExcept y) :=
  ⟨.nil, h⟩

theorem tell {e : τ} {e' : τ'} (h : E e e') :
    Alike E F Eq (Traced.tell e : Traced τ ε Unit) (Traced.tell e' : Traced τ' ε' Unit) :=
  ⟨.cons h .nil, .ok rfl⟩

theorem mapError {δ δ' : Type} {D : δ → δ' → Prop} {f : ε → δ} {g : ε' → δ'} (h : Alike E F A x y)
    (hf : ∀ e e', F e e' → D (f e) (g e')) : Alike E D A (x.mapError f) (y.mapError g) :=
  ⟨h.log, h.result.mapError hf⟩

theorem bind {f : α → Traced τ ε β} {g : α' → Traced τ' ε' β'} (h : Alike E F A x y)
    (hf : ∀ a a', A a a' → Alike E F B (f a) (g a')) : Alike E F B (x >>= f) (y >>= g) := by
  obtain ⟨log, result⟩ := x
  obtain ⟨log', result'⟩ := y
  obtain ⟨hlog, hresult⟩ := h
  cases hresult with
  | ok ha => exact ⟨List.rel_append hlog (hf _ _ ha).log, (hf _ _ ha).result⟩
  | error he => exact ⟨hlog, .error he⟩

end Alike

end Traced

variable {R : Nat → Nat → Prop}

structure SourceLine.Alike (R : Nat → Nat → Prop) (l l' : SourceLine) : Prop where
  number : R l.number l'.number
  text : l.text = l'.text

structure OrgBlock.Alike (R : Nat → Nat → Prop) {β β' : Type} (A : β → β' → Prop) (b : OrgBlock β)
    (b' : OrgBlock β') : Prop where
  location : b.location = b'.location
  line : R b.line b'.line
  body : A b.body b'.body

structure CodeBlocks.Alike (R : Nat → Nat → Prop) {β β' : Type} (A : β → β' → Prop)
    (b : CodeBlocks β) (b' : CodeBlocks β') : Prop where
  main : A b.main b'.main
  interrupt : Option.Rel A b.interrupt b'.interrupt
  orgs : List.Forall₂ (OrgBlock.Alike R A) b.orgs b'.orgs

structure Constant.Alike (R : Nat → Nat → Prop) (c c' : Constant) : Prop where
  line : R c.line c'.line
  value : c.value = c'.value

structure CodeLabel.Alike (R : Nat → Nat → Prop) (c c' : CodeLabel) : Prop where
  line : R c.line c'.line
  kind : c.kind = c'.kind
  address : c.address = c'.address

def NameTable.Alike {α α' : Type} (A : α → α' → Prop) (t : NameTable α) (t' : NameTable α') :
    Prop :=
  List.Forall₂ (fun x y => x.1 = y.1 ∧ A x.2 y.2) t t'

structure Labels.Alike (R : Nat → Nat → Prop) (ls ls' : Labels) : Prop where
  consts : NameTable.Alike (Constant.Alike R) ls.consts ls'.consts
  codes : NameTable.Alike (CodeLabel.Alike R) ls.codes ls'.codes

structure Row.Alike (R : Nat → Nat → Prop) (r r' : Row) : Prop where
  line : R r.line r'.line
  offset : r.offset = r'.offset
  size : r.size = r'.size
  code : r.code = r'.code

structure Section.Alike (R : Nat → Nat → Prop) (s s' : Section) : Prop where
  kind : s.kind = s'.kind
  base : s.base = s'.base
  words : s.words = s'.words
  rows : List.Forall₂ (Row.Alike R) s.rows s'.rows

structure Assembly.Alike (R : Nat → Nat → Prop) (a a' : Assembly) : Prop where
  image : a.image = a'.image
  sections : List.Forall₂ (Section.Alike R) a.sections a'.sections
  labels : Labels.Alike R a.labels a'.labels

structure Place.Alike (R : Nat → Nat → Prop) (p p' : Place) : Prop where
  region : p.region = p'.region
  line : R p.line p'.line

structure Error.Alike (R : Nat → Nat → Prop) (e e' : Error) : Prop where
  fault : e.fault = e'.fault
  place : Option.Rel (Place.Alike R) e.place e'.place

inductive Event.Alike (R : Nat → Nat → Prop) : Event → Event → Prop
  | same (e : Event) : Event.Alike R e e
  | overridden {name : Text} {line line' earlier earlier' : Nat} (now : R line line')
      (before : R earlier earlier') :
      Event.Alike R (.overridden name line earlier) (.overridden name line' earlier')

abbrev Traced.AlikeOn (R : Nat → Nat → Prop) {α α' : Type} (A : α → α' → Prop) :
    Traced Event Error α → Traced Event Error α' → Prop :=
  Traced.Alike (Event.Alike R) (Error.Alike R) A

theorem Error.Alike.onLine (f : Fault) (region : Region) {n n' : Nat} (h : R n n') :
    Error.Alike R (f.onLine region n) (f.onLine region n') :=
  ⟨rfl, .some ⟨rfl, h⟩⟩

theorem Error.Alike.bare (f : Fault) : Error.Alike R f.bare f.bare :=
  ⟨rfl, .none⟩

theorem Outcome.Alike.onLine {α : Type} (x : Except Fault α) (region : Region) {n n' : Nat}
    (h : R n n') : Outcome.Alike (Error.Alike R) Eq (x.mapError (·.onLine region n))
      (x.mapError (·.onLine region n')) := by
  refine (Outcome.Alike.refl x).mapError ?_
  rintro f _ rfl
  exact .onLine f region h

theorem Outcome.Alike.bare {α α' : Type} {A : α → α' → Prop} {x : Except Fault α}
    {y : Except Fault α'} (h : Outcome.Alike Eq A x y) :
    Outcome.Alike (Error.Alike R) A (x.mapError (·.bare)) (y.mapError (·.bare)) := by
  refine h.mapError ?_
  rintro f _ rfl
  exact .bare f

namespace NameTable.Alike

variable {α α' : Type} {A : α → α' → Prop} {t : NameTable α} {t' : NameTable α'}

theorem get? (h : NameTable.Alike A t t') (name : Text) :
    Option.Rel A (t.get? name) (t'.get? name) := by
  induction h with
  | nil => exact .none
  | @cons entry entry' t t' head _ ih =>
      obtain ⟨other, a⟩ := entry
      obtain ⟨other', a'⟩ := entry'
      obtain ⟨rfl, ha⟩ := head
      simp only [NameTable.get?]
      split
      · exact .some ha
      · exact ih

theorem put (h : NameTable.Alike A t t') (name : Text) {a : α} {a' : α'} (ha : A a a') :
    NameTable.Alike A (t.put name a) (t'.put name a') := by
  induction h with
  | nil => exact .cons ⟨rfl, ha⟩ .nil
  | @cons entry entry' t t' head tail ih =>
      obtain ⟨other, b⟩ := entry
      obtain ⟨other', b'⟩ := entry'
      obtain ⟨rfl, hb⟩ := head
      simp only [NameTable.put]
      split
      · exact .cons ⟨rfl, ha⟩ tail
      · exact .cons ⟨rfl, hb⟩ ih

end NameTable.Alike

namespace Labels.Alike

variable {labels labels' : Labels}

theorem constant?_eq (h : Labels.Alike R labels labels') (name : Text) :
    labels.constant? name = labels'.constant? name :=
  Outcome.map_eq_of_rel (h.consts.get? name) fun _ _ hc => hc.value

theorem address?_eq (h : Labels.Alike R labels labels') (name : Text) :
    labels.address? name = labels'.address? name :=
  Outcome.map_eq_of_rel (h.codes.get? name) fun _ _ hc => hc.address

theorem encode_eq (h : Labels.Alike R labels labels') (bus : Bus) (m : Mnemonic) (param : Text) :
    encode m param bus labels = encode m param bus labels' := by
  simp only [encode, Operand.parse, Operand.literal?, h.constant?_eq]

theorem resolve_eq (h : Labels.Alike R labels labels') (bus : Bus) (w : Word) :
    w.resolve bus labels = w.resolve bus labels' := by
  cases w with
  | value n => rfl
  | label name half => simp only [Word.resolve, h.address?_eq]

theorem bind (h : Labels.Alike R labels labels') (name : Text) {line line' : Nat}
    (hline : R line line') (kind : SectionKind) (address : Nat) :
    Traced.Alike (Event.Alike R) Eq (Labels.Alike R) (labels.bind name line kind address)
      (labels'.bind name line' kind address) := by
  unfold Labels.bind
  rw [Outcome.isSome_eq_of_rel (h.consts.get? name), Outcome.isSome_eq_of_rel (h.codes.get? name)]
  split
  · exact .ofExcept (.error rfl)
  · split
    · exact .ofExcept (.error rfl)
    · refine .bind (.tell (.same _)) fun _ _ _ => .pure ?_
      exact ⟨h.consts, h.codes.put name ⟨hline, rfl, rfl⟩⟩

end Labels.Alike

end CrossAssembler
