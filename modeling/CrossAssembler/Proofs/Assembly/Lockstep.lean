import CrossAssembler.Proofs.Alike
import CrossAssembler.Proofs.Sequence

namespace CrossAssembler

open Outcome

variable {bus : Bus} {R : Nat → Nat → Prop} {C : Text → Text → Prop} {W : Word → Word → Prop}
  {L : Labels → Labels → Prop} {E : Event → Event → Prop} {G : Fault → Fault → Prop}

structure SourceLine.Lockstep (R : Nat → Nat → Prop) (C : Text → Text → Prop) (l l' : SourceLine) :
    Prop where
  number : R l.number l'.number
  text : C l.text l'.text

structure Row.Lockstep (R : Nat → Nat → Prop) (C : Text → Text → Prop) (r r' : Row) : Prop where
  line : R r.line r'.line
  offset : r.offset = r'.offset
  size : r.size = r'.size
  code : C r.code r'.code

structure Section.Lockstep (R : Nat → Nat → Prop) (C : Text → Text → Prop) (W : Word → Word → Prop)
    (s s' : Section) : Prop where
  kind : s.kind = s'.kind
  base : s.base = s'.base
  words : List.Forall₂ W s.words s'.words
  rows : List.Forall₂ (Row.Lockstep R C) s.rows s'.rows

structure Assembly.Lockstep (R : Nat → Nat → Prop) (C : Text → Text → Prop) (W : Word → Word → Prop)
    (L : Labels → Labels → Prop) (a a' : Assembly) : Prop where
  image : a.image = a'.image
  sections : List.Forall₂ (Section.Lockstep R C W) a.sections a'.sections
  labels : L a.labels a'.labels

structure Error.Lockstep (R : Nat → Nat → Prop) (G : Fault → Fault → Prop) (e e' : Error) :
    Prop where
  fault : G e.fault e'.fault
  place : Option.Rel (Place.Alike R) e.place e'.place

abbrev Traced.InLockstep (R : Nat → Nat → Prop) (E : Event → Event → Prop)
    (G : Fault → Fault → Prop) {α α' : Type} (A : α → α' → Prop) :
    Traced Event Error α → Traced Event Error α' → Prop :=
  Traced.Alike E (Error.Lockstep R G) A

structure Lockstep (bus : Bus) (R : Nat → Nat → Prop) (C : Text → Text → Prop)
    (W : Word → Word → Prop) (L : Labels → Labels → Prop) (E : Event → Event → Prop)
    (G : Fault → Fault → Prop) : Prop where
  fault (f : Fault) : G f f
  event (e : Event) : E e e
  codes {labels labels' : Labels} (hlabels : L labels labels') :
    labels.codes.length = labels'.codes.length
  line {labels labels' : Labels} {l l' : SourceLine} (hlabels : L labels labels')
    (hline : l.Lockstep R C l') (site : Section.Site) (offset : Nat) :
    Traced.InLockstep R E G (fun x y => L x.1 y.1 ∧ List.Forall₂ W x.2 y.2)
      (Section.encodeLine bus site labels offset l) (Section.encodeLine bus site labels' offset l')
  word {labels labels' : Labels} {w w' : Word} (hlabels : L labels labels') (hword : W w w') :
    Outcome.Alike G Eq (w.resolve bus labels) (w'.resolve bus labels')

namespace Error.Lockstep

theorem onLine {f f' : Fault} (hf : G f f') (region : Region) {n n' : Nat} (hn : R n n') :
    Error.Lockstep R G (f.onLine region n) (f'.onLine region n') :=
  ⟨hf, .some ⟨rfl, hn⟩⟩

theorem bare {f f' : Fault} (hf : G f f') : Error.Lockstep R G f.bare f'.bare :=
  ⟨hf, .none⟩

theorem place_eq {e e' : Error} (h : Error.Lockstep Eq G e e') : e.place = e'.place := by
  have hplace := Outcome.map_eq_of_rel h.place fun p p' hp =>
    show p = p' by cases p; cases p'; obtain ⟨rfl, rfl⟩ := hp; rfl
  simpa using hplace

end Error.Lockstep

namespace Section

variable {s s' : Section} {ss ss' : List Section}

def outline (s : Section) : Section :=
  { s with words := List.replicate s.size (.value 0), rows := [] }

theorem contains_outline (s : Section) (addr : Nat) :
    s.outline.contains addr = s.contains addr := by
  have hstop : s.outline.stop = s.stop := by simp [outline, stop, size]
  rw [contains, contains, hstop]
  rfl

namespace Lockstep

theorem size_eq (h : s.Lockstep R C W s') : s.size = s'.size :=
  h.words.length_eq

theorem stop_eq (h : s.Lockstep R C W s') : s.stop = s'.stop := by
  rw [stop, stop, h.base, h.size_eq]

theorem outline_eq (h : s.Lockstep R C W s') : s.outline = s'.outline := by
  simp only [outline, h.kind, h.base, h.size_eq]

theorem lineAt? (h : s.Lockstep R C W s') (offset : Nat) :
    Option.Rel R (s.lineAt? offset) (s'.lineAt? offset) := by
  have hrows := h.rows
  unfold Section.lineAt?
  generalize s.rows = rows at hrows
  generalize s'.rows = rows' at hrows
  induction hrows with
  | nil => exact .none
  | @cons r r' rows rows' head _ ih =>
      have hcovers : r.covers offset = r'.covers offset := by
        simp only [Row.covers, head.offset, head.size]
      rw [List.find?_cons, List.find?_cons, hcovers]
      cases r'.covers offset with
      | true => exact .some head.line
      | false => exact ih

end Lockstep

end Section

namespace Layout

theorem validate_map_outline (sections : List Section) :
    validate (sections.map Section.outline) = validate sections := by
  have hcollision : collision? (sections.map Section.outline) =
      (collision? sections).map (Prod.map Section.outline Section.outline) := by
    simp only [collision?, List.zipIdx_map, List.findSome?_map, List.map_findSome?]
    refine congrArg (List.findSome? · sections.zipIdx) (funext fun x => ?_)
    simp only [Function.comp_apply, List.map_findSome?]
    refine congrArg (List.findSome? · sections.zipIdx) (funext fun y => ?_)
    simp only [Function.comp_apply, apply_ite (Option.map _), Option.map_some, Option.map_none,
      Prod.map, Section.contains_outline]
    rfl
  have hintruded : (fun s => (intruded? s).map (s.kind, ·)) ∘ Section.outline =
      fun s => (intruded? s).map (s.kind, ·) := rfl
  unfold validate
  rw [List.findSome?_map, hcollision, hintruded]
  cases collision? sections <;> rfl

theorem validate_eq {ss ss' : List Section} (h : List.Forall₂ (Section.Lockstep R C W) ss ss') :
    validate ss = validate ss' := by
  have houtline : ss'.map Section.outline = ss.map Section.outline :=
    Sequence.map_eq_of_forall₂ (h.imp fun _ _ hs => hs.outline_eq.symm)
  rw [← validate_map_outline ss, ← validate_map_outline ss', houtline]

end Layout

namespace Image

variable {pad : Bool} {s s' : Section} {ss ss' : List Section}

theorem byBase_lockstep (h : List.Forall₂ (Section.Lockstep R C W) ss ss') :
    List.Forall₂ (Section.Lockstep R C W) (byBase ss) (byBase ss') := by
  obtain ⟨hlength, hzip⟩ := List.forall₂_iff_zip.mp h
  have hfst : ((ss.zip ss').mergeSort fun x y => x.1.base ≤ y.1.base).map Prod.fst = byBase ss := by
    rw [List.map_mergeSort (s := fun a b : Section => a.base ≤ b.base) fun _ _ _ _ => rfl,
      List.map_fst_zip (Nat.le_of_eq hlength)]
    rfl
  have hsnd : ((ss.zip ss').mergeSort fun x y => x.1.base ≤ y.1.base).map Prod.snd =
      byBase ss' := by
    rw [List.map_mergeSort (s := fun a b : Section => a.base ≤ b.base) ?_,
      List.map_snd_zip (Nat.le_of_eq hlength.symm)]
    · rfl
    · intro x hx y hy
      rw [(hzip hx).base, (hzip hy).base]
  rw [← hfst, ← hsnd, List.forall₂_map_left_iff, List.forall₂_map_right_iff, List.forall₂_same]
  intro x hx
  exact hzip (List.mem_mergeSort.mp hx)

theorem lastStop_lockstep (h : s.Lockstep R C W s') : lastStop pad s = lastStop pad s' := by
  simp only [lastStop, h.kind, h.stop_eq]

theorem stops_lockstep (pad : Bool) (h : List.Forall₂ (Section.Lockstep R C W) ss ss') :
    List.Forall₂ (fun x y => x.1.Lockstep R C W y.1 ∧ x.2 = y.2) (stops pad ss) (stops pad ss') := by
  induction h with
  | nil => exact .nil
  | cons head tail ih =>
      cases tail with
      | nil => exact .cons ⟨head, lastStop_lockstep head⟩ .nil
      | cons next rest => exact .cons ⟨head, next.base⟩ ih

end Image

namespace Lockstep

variable {labels labels' : Labels} {lines lines' : List SourceLine}

theorem encodeLines (h : Lockstep bus R C W L E G) {site : Section.Site}
    (hlines : List.Forall₂ (SourceLine.Lockstep R C) lines lines') (hlabels : L labels labels')
    (offset : Nat) :
    Traced.InLockstep R E G (fun x y => L x.1 y.1 ∧ List.Forall₂ W x.2.1 y.2.1 ∧
        List.Forall₂ (Row.Lockstep R C) x.2.2 y.2.2)
      (Section.encodeLines bus site labels offset lines)
      (Section.encodeLines bus site labels' offset lines') := by
  induction hlines generalizing labels labels' offset with
  | nil => exact .pure ⟨hlabels, .nil, .nil⟩
  | cons head _ ih =>
      rw [Section.encodeLines, Section.encodeLines]
      refine (h.line hlabels head site offset).bind ?_
      rintro ⟨labels₁, words⟩ ⟨labels₁', words'⟩ ⟨hlabels₁, hwords⟩
      have hsize := hwords.length_eq
      dsimp only at hsize ⊢
      rw [← hsize]
      refine (ih hlabels₁ _).bind ?_
      rintro ⟨labels₂, more, rows⟩ ⟨labels₂', more', rows'⟩ ⟨hlabels₂, hmore, hrows⟩
      exact .pure ⟨hlabels₂, List.rel_append hwords hmore,
        .cons ⟨head.number, rfl, rfl, head.text⟩ hrows⟩

theorem encodeSection (h : Lockstep bus R C W L E G) {site : Section.Site}
    (hlines : List.Forall₂ (SourceLine.Lockstep R C) lines lines') (hlabels : L labels labels') :
    Traced.InLockstep R E G (fun x y => L x.1 y.1 ∧ x.2.Lockstep R C W y.2)
      (Section.encode bus site labels lines) (Section.encode bus site labels' lines') := by
  refine (h.encodeLines hlines hlabels 0).bind ?_
  rintro ⟨labels₁, words, rows⟩ ⟨labels₁', words', rows'⟩ ⟨hlabels₁, hwords, hrows⟩
  have hsize := hwords.length_eq
  dsimp only at hsize ⊢
  rw [hsize]
  exact .bind (.tell (h.event _)) fun _ _ _ => .pure ⟨hlabels₁, rfl, rfl, hwords, hrows⟩

theorem encodeOrgs (h : Lockstep bus R C W L E G) {orgs orgs' : List (OrgBlock (List SourceLine))}
    (horgs : List.Forall₂ (OrgBlock.Alike R (List.Forall₂ (SourceLine.Lockstep R C))) orgs orgs')
    (hlabels : L labels labels') :
    Traced.InLockstep R E G (fun x y => L x.1 y.1 ∧
        List.Forall₂ (Section.Lockstep R C W) x.2 y.2)
      (Program.encodeOrgs bus labels orgs) (Program.encodeOrgs bus labels' orgs') := by
  induction horgs generalizing labels labels' with
  | nil => exact .pure ⟨hlabels, .nil⟩
  | cons head _ ih =>
      rw [Program.encodeOrgs, Program.encodeOrgs, head.location]
      refine .bind (.ofExcept ((Alike.refl _).mapError ?_)) ?_
      · rintro f _ rfl
        exact .onLine (h.fault f) _ head.line
      · rintro base _ rfl
        refine (h.encodeSection head.body hlabels).bind ?_
        rintro ⟨labels₁, s⟩ ⟨labels₁', s'⟩ ⟨hlabels₁, hs⟩
        refine (ih hlabels₁).bind ?_
        rintro ⟨labels₂, more⟩ ⟨labels₂', more'⟩ ⟨hlabels₂, hmore⟩
        exact .pure ⟨hlabels₂, .cons hs hmore⟩

theorem encode (h : Lockstep bus R C W L E G) {p p' : Program}
    (hp : CodeBlocks.Alike R (List.Forall₂ (SourceLine.Lockstep R C)) p p')
    (hlabels : L labels labels') :
    Traced.InLockstep R E G (fun x y => L x.1 y.1 ∧
        List.Forall₂ (Section.Lockstep R C W) x.2 y.2)
      (p.encode bus labels) (p'.encode bus labels') := by
  obtain ⟨main, interrupt, orgs⟩ := p
  obtain ⟨main', interrupt', orgs'⟩ := p'
  obtain ⟨hmain, hinterrupt, horgs⟩ := hp
  refine (h.encodeSection hmain hlabels).bind ?_
  rintro ⟨labels₁, s⟩ ⟨labels₁', s'⟩ ⟨hlabels₁, hs⟩
  -- What comes after the interrupt section, whether there is one or not.
  have hrest : ∀ x y : Labels × List Section,
      (L x.1 y.1 ∧ List.Forall₂ (Section.Lockstep R C W) x.2 y.2) →
      Traced.InLockstep R E G (fun x y => L x.1 y.1 ∧
          List.Forall₂ (Section.Lockstep R C W) x.2 y.2)
        (Program.encodeOrgs bus x.1 orgs >>= fun z => pure (z.1, s :: (x.2 ++ z.2)))
        (Program.encodeOrgs bus y.1 orgs' >>= fun z => pure (z.1, s' :: (y.2 ++ z.2))) := by
    rintro ⟨labels₂, middle⟩ ⟨labels₂', middle'⟩ ⟨hlabels₂, hmiddle⟩
    refine (h.encodeOrgs horgs hlabels₂).bind ?_
    rintro ⟨labels₃, more⟩ ⟨labels₃', more'⟩ ⟨hlabels₃, hmore⟩
    exact .pure ⟨hlabels₃, .cons hs (List.rel_append hmiddle hmore)⟩
  cases hinterrupt with
  | none => exact hrest (labels₁, []) (labels₁', []) ⟨hlabels₁, .nil⟩
  | some hbody =>
      refine (h.encodeSection hbody hlabels₁).bind ?_
      rintro ⟨labels₂, t⟩ ⟨labels₂', t'⟩ ⟨hlabels₂, ht⟩
      exact hrest (labels₂, [t]) (labels₂', [t']) ⟨hlabels₂, .cons ht .nil⟩

theorem resolveFrom (h : Lockstep bus R C W L E G) (hlabels : L labels labels') {s s' : Section}
    (hs : s.Lockstep R C W s') {ws ws' : List Word} (hwords : List.Forall₂ W ws ws')
    (offset : Nat) :
    Alike (Error.Lockstep R G) Eq (Image.resolveFrom bus labels s offset ws)
      (Image.resolveFrom bus labels' s' offset ws') := by
  induction hwords generalizing offset with
  | nil => exact .ok rfl
  | cons head _ ih =>
      rw [Image.resolveFrom, Image.resolveFrom]
      refine .bind ((h.word hlabels head).mapError ?_) ?_
      · intro f f' hf
        have hline := hs.lineAt? offset
        generalize s.lineAt? offset = line at hline
        generalize s'.lineAt? offset = line' at hline
        cases hline with
        | none => exact .bare hf
        | some hline => exact hs.kind ▸ .onLine hf _ hline
      · rintro n _ rfl
        refine (ih (offset + 1)).bind ?_
        rintro ns _ rfl
        exact .ok rfl

theorem fill (h : Lockstep bus R C W L E G) (hlabels : L labels labels') {s s' : Section}
    (hs : s.Lockstep R C W s') (stop : Nat) :
    Alike (Error.Lockstep R G) Eq (Image.fill bus labels s stop)
      (Image.fill bus labels' s' stop) := by
  unfold Image.fill
  rw [hs.base, hs.size_eq]
  refine (h.resolveFrom hlabels hs (List.forall₂_take _ hs.words) 0).bind ?_
  rintro words _ rfl
  exact .ok rfl

theorem link (h : Lockstep bus R C W L E G) (hlabels : L labels labels') {pad : Bool}
    {ss ss' : List Section} (hss : List.Forall₂ (Section.Lockstep R C W) ss ss') :
    Traced.InLockstep R E G Eq (Image.link bus labels pad ss) (Image.link bus labels' pad ss') := by
  have hspread := Image.stops_lockstep pad (Image.byBase_lockstep hss)
  have htotal : ((Image.stops pad (Image.byBase ss)).getLast?.map (·.2)).getD 0 =
      ((Image.stops pad (Image.byBase ss')).getLast?.map (·.2)).getD 0 := by
    have hstops : (Image.stops pad (Image.byBase ss')).map (·.2) =
        (Image.stops pad (Image.byBase ss)).map (·.2) :=
      Sequence.map_eq_of_forall₂ (hspread.imp fun _ _ hxy => hxy.2.symm)
    rw [← List.getLast?_map, ← List.getLast?_map, hstops]
  have hparts : Alike (Error.Lockstep R G) (List.Forall₂ Eq)
      ((Image.stops pad (Image.byBase ss)).mapM fun x => Image.fill bus labels x.1 x.2)
      ((Image.stops pad (Image.byBase ss')).mapM fun x => Image.fill bus labels' x.1 x.2) := by
    refine .mapM hspread fun x y hxy => ?_
    rw [hxy.2]
    exact h.fill hlabels hxy.1 y.2
  unfold Image.link
  dsimp only
  rw [htotal, hss.length_eq]
  split
  · exact .ofExcept (.error (.bare (h.fault _)))
  · refine .bind (.ofExcept hparts) fun parts parts' hwords => ?_
    rw [List.forall₂_eq_eq_eq] at hwords
    subst hwords
    exact .bind (.tell (h.event _)) fun _ _ _ => .pure rfl

theorem build (h : Lockstep bus R C W L E G) {pad : Bool} {p p' : Program}
    (hp : CodeBlocks.Alike R (List.Forall₂ (SourceLine.Lockstep R C)) p p')
    (hlabels : L labels labels') :
    Traced.InLockstep R E G (Assembly.Lockstep R C W L) (p.build bus pad labels)
      (p'.build bus pad labels') := by
  refine (h.encode hp hlabels).bind ?_
  rintro ⟨labels₁, sections⟩ ⟨labels₁', sections'⟩ ⟨hlabels₁, hsections⟩
  dsimp only
  rw [hsections.length_eq, h.codes hlabels₁, Layout.validate_eq hsections]
  refine .bind (.tell (h.event _)) fun _ _ _ => .bind (.ofExcept ((Alike.refl _).mapError ?_)) ?_
  · rintro f _ rfl
    exact .bare (h.fault f)
  · intro _ _ _
    refine (h.link hlabels₁ hsections).bind ?_
    rintro image _ rfl
    exact .pure ⟨rfl, Image.byBase_lockstep hsections, hlabels₁⟩

end Lockstep

end CrossAssembler
