import CrossAssembler.Proofs.Assembly.Lockstep
import CrossAssembler.Proofs.Assembly.Run
import CrossAssembler.Proofs.Statement.Renaming
import Mathlib.Data.Set.Function

namespace CrossAssembler

open Outcome Section

variable {bus : Bus} {labels ls ls' : Labels} {name name' : Text} {N : Text → Text → Prop}

theorem NameTable.get?_eq_of_oneToOne {α : Type} {t t' : NameTable α} (hN : Relator.BiUnique N)
    (h : List.Forall₂ (fun x y => N x.1 y.1 ∧ x.2 = y.2) t t') (hname : N name name') :
    t.get? name = t'.get? name' := by
  induction h with
  | nil => rfl
  | @cons entry entry' t t' head _ ih =>
      obtain ⟨other, a⟩ := entry
      obtain ⟨other', a'⟩ := entry'
      obtain ⟨hother, rfl⟩ := head
      simp only [NameTable.get?, Relator.rel_eq hN hother hname, ih]

structure Labels.Renames (labels : Labels) (N : Text → Text → Prop) (ls ls' : Labels) : Prop where
  consts : ls.consts = labels.consts
  consts_renamed : ls'.consts = labels.consts
  codes : List.Forall₂ (fun x y => N x.1 y.1 ∧ x.2 = y.2) ls.codes ls'.codes

namespace Labels.Renames

theorem address?_eq (h : Labels.Renames labels N ls ls') (hN : Renaming labels N)
    (hname : N name name') : ls.address? name = ls'.address? name' := by
  rw [Labels.address?, Labels.address?, NameTable.get?_eq_of_oneToOne hN.oneToOne h.codes hname]

theorem bind (h : Labels.Renames labels N ls ls') (hN : Renaming labels N) (hname : N name name')
    (line : Nat) (kind : SectionKind) (address : Nat) :
    Traced.Alike (fun _ _ => True) (fun _ _ => True) (Labels.Renames labels N)
      (ls.bind name line kind address) (ls'.bind name' line kind address) := by
  obtain ⟨hadmits, hadmits'⟩ := hN.admits hname
  have hconst : ls.consts.get? name = none := by
    rw [h.consts]
    exact Option.map_eq_none_iff.mp hadmits.free
  have hconst' : ls'.consts.get? name' = none := by
    rw [h.consts_renamed]
    exact Option.map_eq_none_iff.mp hadmits'.free
  have hcode := NameTable.get?_eq_of_oneToOne hN.oneToOne h.codes hname
  unfold Labels.bind
  simp only [hconst, hconst', ← hcode]
  cases hget : ls.codes.get? name with
  | some c => exact .ofExcept (.error trivial)
  | none =>
      rw [hget] at hcode
      refine .bind (.tell trivial) fun _ _ _ => .pure ⟨h.consts, h.consts_renamed, ?_⟩
      rw [NameTable.put_of_get?_eq_none _ hget, NameTable.put_of_get?_eq_none _ hcode.symm]
      exact List.rel_append h.codes (.cons ⟨hname, rfl⟩ .nil)

theorem resolve (h : Labels.Renames labels N ls ls') (hN : Renaming labels N) {w w' : Word}
    (hword : Word.Renames N w w') :
    Outcome.Alike (fun _ _ => True) Eq (w.resolve bus ls) (w'.resolve bus ls') := by
  cases hword with
  | value n => exact .ok rfl
  | label hname half =>
      rw [Word.resolve, Word.resolve, h.address?_eq hN hname]
      split
      · exact .error trivial
      · exact (Outcome.Alike.refl _).imp (fun _ _ _ => trivial) fun _ _ hn => hn

end Labels.Renames

def Text.Renames (labels : Labels) (N : Text → Text → Prop) (t t' : Text) : Prop :=
  Outcome.Alike (fun _ _ => True) (Statement.Renames labels N) (Statement.parse t)
    (Statement.parse t')

theorem Section.encodeLine_renames {site : Site} {l l' : SourceLine} (hN : Renaming labels N)
    (hlabels : Labels.Renames labels N ls ls') (hline : l.Lockstep Eq (Text.Renames labels N) l')
    (offset : Nat) :
    Traced.InLockstep Eq (fun _ _ => True) (fun _ _ => True)
      (fun x y => Labels.Renames labels N x.1 y.1 ∧ List.Forall₂ (Word.Renames N) x.2 y.2)
      (encodeLine bus site ls offset l) (encodeLine bus site ls' offset l') := by
  obtain ⟨hnumber, htext⟩ := hline
  unfold encodeLine
  refine Traced.Alike.mapError (F := fun _ _ => True) ?_ fun f f' _ => .onLine trivial _ hnumber
  refine .bind (.ofExcept htext) fun s s' hs => ?_
  cases hs with
  | declaration hname =>
      obtain ⟨hadmits, hadmits'⟩ := hN.admits hname
      dsimp only
      rw [hadmits.named, hadmits'.named, hnumber]
      refine .bind (.ofExcept (.ok rfl)) fun _ _ _ => ?_
      split
      · exact .ofExcept (.error trivial)
      · refine (hlabels.bind hN hname l'.number site.kind _).bind fun _ _ h => ?_
        exact .pure ⟨h, .nil⟩
  | instruction hparam =>
      dsimp only
      rw [encode_congr hlabels.consts, encode_congr hlabels.consts_renamed]
      refine .bind (.ofExcept (hN.encode hparam)) fun words words' hwords => ?_
      rw [hwords.length_eq]
      split
      · exact .ofExcept (.error trivial)
      · exact .pure ⟨hlabels, hwords⟩

theorem Renaming.lockstep (hN : Renaming labels N) (bus : Bus) :
    Lockstep bus Eq (Text.Renames labels N) (Word.Renames N) (Labels.Renames labels N)
      (fun _ _ => True) (fun _ _ => True) where
  fault _ := trivial
  event _ := trivial
  codes hlabels := hlabels.codes.length_eq
  line hlabels hline _ offset := Section.encodeLine_renames hN hlabels hline offset
  word hlabels hword := hlabels.resolve hN hword

namespace SourceLine

def labelName? (labels : Labels) (l : SourceLine) : Option Text :=
  match Statement.parse l.text with
  | .error _ => none
  | .ok (.label name) => some name
  | .ok (.instruction m param) =>
      if Operand.parse m param labels = .ok (.label param) then some param else none

def rename (ρ : Text → Text) (labels : Labels) (l : SourceLine) : SourceLine :=
  match Statement.parse l.text with
  | .error _ => l
  | .ok (.label name) => { l with text := ρ name ++ [':'] }
  | .ok (.instruction m param) =>
      if Operand.parse m param labels = .ok (.label param) then
        { l with text := m.name.toList ++ ' ' :: ρ param }
      else l

theorem number_rename (ρ : Text → Text) (labels : Labels) (l : SourceLine) :
    (l.rename ρ labels).number = l.number := by
  unfold rename
  split
  · rfl
  · rfl
  · split <;> rfl

theorem lockstep_rename {ρ : Text → Text} {l : SourceLine}
    (h : ∀ name, l.labelName? labels = some name → N name (ρ name) ∧ labels.Admits (ρ name)) :
    l.Lockstep Eq (Text.Renames labels N) (l.rename ρ labels) := by
  refine ⟨(l.number_rename ρ labels).symm, ?_⟩
  unfold labelName? at h
  unfold rename Text.Renames
  cases hparse : Statement.parse l.text with
  | error f =>
      simp only [hparse]
      exact .error trivial
  | ok statement =>
      cases statement with
      | label name =>
          simp only [hparse] at h ⊢
          obtain ⟨hname, hadmits⟩ := h name rfl
          rw [hadmits.parse_declaration]
          exact .ok (.declaration hname)
      | instruction m param =>
          simp only [hparse] at h ⊢
          split
          · rename_i hlabel
            obtain ⟨hname, hadmits⟩ := h param (if_pos hlabel)
            rw [hadmits.parse_reference]
            exact .ok (.instruction (.reference hname))
          · rename_i hplain
            rw [hparse]
            refine .ok (.instruction (.plain fun name hname => hplain ?_))
            rw [hname, (Operand.eq_of_parse_eq_label hname).1]

end SourceLine

namespace Program

def lines (p : Program) : List SourceLine :=
  p.main ++ (p.interrupt.getD [] ++ p.orgs.flatMap (·.body))

def labelNames (labels : Labels) (p : Program) : List Text :=
  p.lines.filterMap (·.labelName? labels)

def rename (ρ : Text → Text) (labels : Labels) (p : Program) : Program :=
  p.map (List.map (SourceLine.rename ρ labels))

theorem lockstep_rename {ρ : Text → Text} {p : Program}
    (h : ∀ name ∈ p.labelNames labels, N name (ρ name) ∧ labels.Admits (ρ name)) :
    CodeBlocks.Alike Eq (List.Forall₂ (SourceLine.Lockstep Eq (Text.Renames labels N))) p
      (p.rename ρ labels) := by
  have hbody : ∀ body : List SourceLine, (∀ l ∈ body, l ∈ p.lines) →
      List.Forall₂ (SourceLine.Lockstep Eq (Text.Renames labels N)) body
        (body.map (SourceLine.rename ρ labels)) := by
    intro body hmem
    rw [List.forall₂_map_right_iff, List.forall₂_same]
    intro l hl
    apply SourceLine.lockstep_rename
    intro name hname
    exact h name (List.mem_filterMap.mpr ⟨l, hmem l hl, hname⟩)
  obtain ⟨main, interrupt, orgs⟩ := p
  simp only [lines, List.mem_append, List.mem_flatMap] at hbody
  refine ⟨hbody main fun l hl => .inl hl, ?_, ?_⟩
  · cases interrupt with
    | none => exact .none
    | some body => exact .some (hbody body fun l hl => .inr (.inl hl))
  · simp only [rename, CodeBlocks.map, List.forall₂_map_right_iff, List.forall₂_same]
    intro org horg
    exact ⟨rfl, rfl, hbody org.body fun l hl => .inr (.inr ⟨org, horg, hl⟩)⟩

def Renamed (ρ : Text → Text) (labels : Labels) (p : Program) (name name' : Text) : Prop :=
  name ∈ p.labelNames labels ∧ name' = ρ name

theorem renaming_renamed {ρ : Text → Text} {p : Program}
    (hnames : ∀ name ∈ p.labelNames labels, labels.Admits name)
    (hrenamed : ∀ name ∈ p.labelNames labels, labels.Admits (ρ name))
    (hinj : Set.InjOn ρ { name | name ∈ p.labelNames labels }) :
    Renaming labels (p.Renamed ρ labels) := by
  refine ⟨⟨?_, ?_⟩, ?_⟩
  · rintro name _ other ⟨hname, rfl⟩ ⟨hother, heq⟩
    exact hinj hname hother heq
  · rintro name _ _ ⟨-, rfl⟩ ⟨-, rfl⟩
    rfl
  · rintro name _ ⟨hname, rfl⟩
    exact ⟨hnames name hname, hrenamed name hname⟩

theorem build_rename {pad : Bool} {consts : NameTable Constant} {p : Program} {ρ : Text → Text}
    (hnames : ∀ name ∈ p.labelNames { consts }, Labels.Admits { consts } name)
    (hrenamed : ∀ name ∈ p.labelNames { consts }, Labels.Admits { consts } (ρ name))
    (hinj : Set.InjOn ρ { name | name ∈ p.labelNames { consts } }) :
    Outcome.Alike (fun e e' => e'.place = e.place)
      (fun a a' => a'.image.words = a.image.words ∧
        ∀ name ∈ p.labelNames { consts }, a'.labels.address? (ρ name) = a.labels.address? name)
      (p.build bus pad { consts }).result
      ((p.rename ρ { consts }).build bus pad { consts }).result := by
  have hN := renaming_renamed hnames hrenamed hinj
  have hp : CodeBlocks.Alike Eq (List.Forall₂ (SourceLine.Lockstep Eq (Text.Renames { consts }
      (p.Renamed ρ { consts })))) p (p.rename ρ { consts }) :=
    lockstep_rename fun name hname => ⟨⟨hname, rfl⟩, hrenamed name hname⟩
  have hlabels : Labels.Renames { consts } (p.Renamed ρ { consts }) { consts } { consts } :=
    ⟨rfl, rfl, .nil⟩
  refine ((hN.lockstep bus).build hp hlabels).result.imp (fun _ _ he => he.place_eq.symm) ?_
  intro a a' ha
  refine ⟨by rw [ha.image], fun name hname => ?_⟩
  exact (ha.labels.address?_eq hN ⟨hname, rfl⟩).symm

def loopProgram : Program where
  main := [⟨5, "START:".toList⟩, ⟨6, "LDA #STEP".toList⟩, ⟨7, "BZS  DONE".toList⟩,
    ⟨8, "JMP START".toList⟩, ⟨9, "DONE :".toList⟩, ⟨10, "NOP".toList⟩]
  interrupt := some [⟨13, "JSR START".toList⟩]
  orgs := []

def stepConstant : NameTable Constant :=
  [("STEP".toList, ⟨2, ⟨.dec, 3⟩⟩)]

def shiftName (name : Text) : Text :=
  if name = "START".toList then "DONE".toList
  else if name = "DONE".toList then "JMP".toList
  else name

theorem build_rename_loopProgram :
    (∀ name ∈ loopProgram.labelNames { consts := stepConstant },
      Labels.Admits { consts := stepConstant } name ∧
        Labels.Admits { consts := stepConstant } (shiftName name)) ∧
    Set.InjOn shiftName { name | name ∈ loopProgram.labelNames { consts := stepConstant } } ∧
    ∃ a a', (loopProgram.build sampleBus false { consts := stepConstant }).result = .ok a ∧
      ((loopProgram.rename shiftName { consts := stepConstant }).build sampleBus false
        { consts := stepConstant }).result = .ok a' ∧
      a'.image.words = a.image.words ∧ a'.labels.address? "JMP".toList = some 8 := by
  have hadmits : ∀ name ∈ loopProgram.labelNames { consts := stepConstant },
      Labels.Admits { consts := stepConstant } name ∧
        Labels.Admits { consts := stepConstant } (shiftName name) := by decide +kernel
  have hinj : Set.InjOn shiftName
      { name | name ∈ loopProgram.labelNames { consts := stepConstant } } := by
    have : ∀ x ∈ loopProgram.labelNames { consts := stepConstant },
        ∀ y ∈ loopProgram.labelNames { consts := stepConstant },
        shiftName x = shiftName y → x = y := by decide +kernel
    exact fun x hx y hy => this x hx y hy
  have h : (loopProgram.buildInOrder? sampleBus false { consts := stepConstant }).any
      (fun a => a.labels.address? "DONE".toList = some 8) = true := by decide +kernel
  obtain ⟨a, ha, haddress⟩ := (Option.any_eq_true _ _).mp h
  have hbuild := build_of_inOrder? ha
  have hdone : "DONE".toList ∈ loopProgram.labelNames { consts := stepConstant } := by
    decide +kernel
  have halike := @build_rename sampleBus false stepConstant loopProgram shiftName
    (fun name hname => (hadmits name hname).1) (fun name hname => (hadmits name hname).2) hinj
  obtain ⟨a', ha', hwords, haddresses⟩ := halike.exists_ok hbuild
  exact ⟨hadmits, hinj, a, a', hbuild, ha', hwords,
    (haddresses _ hdone).trans (of_decide_eq_true haddress)⟩

end Program

end CrossAssembler
