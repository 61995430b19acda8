import CrossAssembler.Proofs.Assembly.Lockstep
import CrossAssembler.Proofs.Assembly.Run
import CrossAssembler.Proofs.Section.Listing
import CrossAssembler.Proofs.Statement.Substitution

namespace CrossAssembler

open Outcome Section Text

variable {bus : Bus} {labels ls : Labels}

theorem Traced.Alike.refl_of_result {τ ε α : Type} {E : τ → τ → Prop} {F : ε → ε → Prop}
    {A : α → α → Prop} {x : Traced τ ε α} (hE : ∀ e, E e e) (hF : ∀ e, F e e)
    (hA : ∀ a, x.result = .ok a → A a a) : Traced.Alike E F A x x := by
  refine ⟨List.forall₂_same.mpr fun e _ => hE e, ?_⟩
  cases hx : x.result with
  | ok a => exact .ok (hA a hx)
  | error e => exact .error (hF e)

inductive Text.Substitutes (labels : Labels) : Text → Text → Prop
  | same (code : Text) : Substitutes labels code code
  | operand {before after param param' : Text} {m : Mnemonic} (blank : Blank after)
      (parsed : Statement.parse (before ++ param ++ after) = .ok (.instruction m param))
      (operand : Operand.Substitutes labels param param') :
      Substitutes labels (before ++ param ++ after) (before ++ param' ++ after)

def Labels.SameOver (labels ls ls' : Labels) : Prop :=
  ls = ls' ∧ ls.consts = labels.consts

theorem Error.Lockstep.refl (e : Error) : Error.Lockstep Eq Fault.SameCause e e := by
  refine ⟨rfl, ?_⟩
  cases e.place with
  | none => exact .none
  | some p => exact .some ⟨rfl, rfl⟩

theorem Section.encodeLine_substitutes {site : Site} {l l' : SourceLine} (hnamed : labels.Named)
    (hconsts : ls.consts = labels.consts) (hline : l.Lockstep Eq (Text.Substitutes labels) l')
    (offset : Nat) :
    Traced.InLockstep Eq Eq Fault.SameCause
      (fun x y => Labels.SameOver labels x.1 y.1 ∧ List.Forall₂ Eq x.2 y.2)
      (encodeLine bus site ls offset l) (encodeLine bus site ls offset l') := by
  obtain ⟨number, text⟩ := l
  obtain ⟨number', text'⟩ := l'
  obtain ⟨rfl, htext⟩ := hline
  cases htext with
  | same =>
      refine .refl_of_result (fun _ => rfl) Error.Lockstep.refl fun x hx => ⟨⟨rfl, ?_⟩, ?_⟩
      · exact (encodeLine_eq_ok_iff.mp hx).consts_eq.trans hconsts
      · exact List.forall₂_same.mpr fun _ _ => rfl
  | @operand before after param param' m blank parsed operand =>
      have hstatement : Outcome.Alike Fault.SameCause
          (fun s s' => s = .instruction m param ∧ s' = .instruction m param')
          (Statement.parse (before ++ param ++ after))
          (Statement.parse (before ++ param' ++ after)) := by
        rw [parsed, operand.parse_replaced hnamed blank parsed]
        exact .ok ⟨rfl, rfl⟩
      unfold encodeLine
      refine Traced.Alike.mapError (F := Fault.SameCause) ?_ fun f f' hf => .onLine hf _ rfl
      refine .bind (.ofExcept hstatement) ?_
      rintro _ _ ⟨rfl, rfl⟩
      dsimp only
      rw [encode_congr hconsts, encode_congr hconsts]
      refine .bind (.ofExcept (operand.encode hnamed)) ?_
      rintro words _ rfl
      split
      · exact .ofExcept (.error rfl)
      · exact .pure ⟨⟨rfl, hconsts⟩, List.forall₂_same.mpr fun _ _ => rfl⟩

theorem Labels.Named.lockstep (hnamed : labels.Named) (bus : Bus) :
    Lockstep bus Eq (Text.Substitutes labels) Eq (Labels.SameOver labels) Eq
      Fault.SameCause where
  fault _ := rfl
  event _ := rfl
  codes hlabels := by rw [hlabels.1]
  line hlabels hline _ offset := by
    obtain ⟨rfl, hconsts⟩ := hlabels
    exact Section.encodeLine_substitutes hnamed hconsts hline offset
  word hlabels hword := by
    obtain ⟨rfl, -⟩ := hlabels
    rw [hword]
    exact (Outcome.Alike.refl _).imp (fun _ _ hf => congrArg Fault.unquoted hf) fun _ _ hn => hn

namespace Program

def Substitutes (labels : Labels) (p p' : Program) : Prop :=
  CodeBlocks.Alike Eq (List.Forall₂ (SourceLine.Lockstep Eq (Text.Substitutes labels))) p p'

theorem build_substitute {head : List SourceLine}
    (hcollect : (Constants.collect .empty head).result = .ok labels) (bus : Bus) :
    (∀ (m : Mnemonic) (name t : Text) (l l' : Literal), labels.constant? name = some l →
      Literal.parse? t = some l' → l'.value = l.value →
      Outcome.Alike Fault.SameCause Eq (CrossAssembler.encode m name bus labels)
        (CrossAssembler.encode m t bus labels) ∧
      Outcome.Alike Fault.SameCause Eq (CrossAssembler.encode m ('#' :: name) bus labels)
        (CrossAssembler.encode m ('#' :: t) bus labels)) ∧
    ∀ (pad : Bool) (p p' : Program), Substitutes labels p p' →
      Outcome.Alike (fun e e' => e.place = e'.place ∧ e.fault.SameCause e'.fault)
        (fun a a' => a'.image = a.image ∧ ∀ name, a'.labels.address? name = a.labels.address? name)
        (p.build bus pad labels).result (p'.build bus pad labels).result := by
  have hnamed : labels.Named := fun _ _ hname =>
    Constants.checkName_of_constant? hcollect rfl hname
  refine ⟨fun m name t l l' defined written value => ?_, fun pad p p' hp => ?_⟩
  · exact ⟨Operand.Substitutes.encode hnamed (.direct defined written value),
      Operand.Substitutes.encode hnamed (.immediate defined written value)⟩
  · have hlabels : Labels.SameOver labels labels labels := ⟨rfl, rfl⟩
    refine ((hnamed.lockstep bus).build hp hlabels).result.imp
      (fun e e' he => ⟨he.place_eq, he.fault⟩) fun a a' ha => ?_
    exact ⟨ha.image.symm, fun name => by rw [ha.labels.1]⟩

def namedProgram : Program where
  main := [⟨7, "LDA #SPEED".toList⟩, ⟨8, "STA  FAR".toList⟩, ⟨9, "LOOP:".toList⟩,
    ⟨10, "JMP LOOP".toList⟩]
  interrupt := none
  orgs := []

def writtenProgram : Program where
  main := [⟨7, "LDA #¬010000".toList⟩, ⟨8, "STA  $001234".toList⟩, ⟨9, "LOOP:".toList⟩,
    ⟨10, "JMP LOOP".toList⟩]
  interrupt := none
  orgs := []

theorem build_substitute_namedProgram :
    (Constants.collect .empty speedHead).result = .ok speedLabels ∧
    Substitutes speedLabels namedProgram writtenProgram ∧
    ∃ a a', (namedProgram.build sampleBus false speedLabels).result = .ok a ∧
      (writtenProgram.build sampleBus false speedLabels).result = .ok a' ∧
      a'.image = a.image ∧ a'.labels.address? "LOOP".toList = some 5 := by
  have hcollect : (Constants.collect .empty speedHead).result = .ok speedLabels := by decide
  have hspeed : Operand.Substitutes speedLabels "#SPEED".toList "#¬010000".toList :=
    .immediate (by decide : speedLabels.constant? "SPEED".toList = some ⟨.hex, 16⟩)
      (by decide : Literal.parse? "¬010000".toList = some ⟨.bin, 16⟩) rfl
  have hfar : Operand.Substitutes speedLabels "FAR".toList "$001234".toList :=
    .direct (by decide : speedLabels.constant? "FAR".toList = some ⟨.dec, 4660⟩)
      (by decide : Literal.parse? "$001234".toList = some ⟨.hex, 4660⟩) rfl
  have hload : Text.Substitutes speedLabels "LDA #SPEED".toList "LDA #¬010000".toList :=
    @Text.Substitutes.operand speedLabels "LDA ".toList [] _ _ .lda (by decide) (by decide) hspeed
  have hstore : Text.Substitutes speedLabels "STA  FAR".toList "STA  $001234".toList :=
    @Text.Substitutes.operand speedLabels "STA  ".toList [] _ _ .sta (by decide) (by decide) hfar
  have hp : Substitutes speedLabels namedProgram writtenProgram :=
    ⟨.cons ⟨rfl, hload⟩ (.cons ⟨rfl, hstore⟩
      (.cons ⟨rfl, .same _⟩ (.cons ⟨rfl, .same _⟩ .nil))), .none, .nil⟩
  have h : (namedProgram.buildInOrder? sampleBus false speedLabels).any
      (fun a => a.labels.address? "LOOP".toList = some 5) = true := by decide +kernel
  obtain ⟨a, ha, haddress⟩ := (Option.any_eq_true _ _).mp h
  have hbuild := build_of_inOrder? ha
  obtain ⟨a', ha', himage, haddresses⟩ :=
    ((build_substitute hcollect sampleBus).2 false _ _ hp).exists_ok hbuild
  exact ⟨hcollect, hp, a, a', hbuild, ha', himage,
    (haddresses _).trans (of_decide_eq_true haddress)⟩

end Program

end CrossAssembler
