import CrossAssembler.Proofs.Assembly.Significance
import CrossAssembler.Proofs.Source.Joining

namespace CrossAssembler

open Outcome Text

variable {raw raw' : Text}

structure OneLine (raw raw' : Text) where
  before : List Text
  lead : Text := []
  gap : Text := [' ']
  location : Text
  literal : Literal
  space : Text := [' ']
  statement : Text
  after : List Text
  parsed : Literal.parse? location = some literal := by decide
  blank : Blank space := by decide
  space_ne_nil : space ≠ [] := by decide
  two : raw.significantLines.map (·.text) =
    before ++ (lead ++ Directive.org.opening ++ gap ++ location) :: statement :: after := by
      decide +kernel
  one : raw'.significantLines.map (·.text) =
    before ++ (lead ++ Directive.org.opening ++ gap ++ location ++ space ++ statement) :: after := by
      decide +kernel

namespace OneLine

def directive (w : OneLine raw raw') : Text :=
  w.lead ++ Directive.org.opening ++ w.gap ++ w.location

def joint (w : OneLine raw raw') : Nat :=
  (w.before.flatMap (· ++ ['\n'])).length + w.directive.length

def SameLine (w : OneLine raw raw') (n n' : Nat) : Prop :=
  ∃ (k : Nat) (l l' : SourceLine), raw.significantLines[k]? = some l ∧
    raw'.significantLines[if k ≤ w.before.length then k else k - 1]? = some l' ∧
    l.number = n ∧ l'.number = n'

def Located (w : OneLine raw raw') : Prop :=
  ∀ r : Radix, r.rank < w.literal.radix.rank → r.marker ∉ w.statement

def Outside (w : OneLine raw raw') : Prop :=
  ∀ body ∈ Source.bodies ⟨raw.significantLines⟩, ¬(body.start < w.joint ∧ w.joint < body.stop)

section Lines

variable {w : OneLine raw raw'} {before before' after after' : List SourceLine}
  {first second joined : SourceLine}
  (hraw : raw.significantLines = before ++ first :: second :: after)
  (hraw' : raw'.significantLines = before' ++ joined :: after')
  (hlength : before.length = w.before.length) (hlength' : before'.length = w.before.length)

include hraw hraw' hlength hlength'

theorem sameLine_first : w.SameLine first.number joined.number := by
  refine ⟨before.length, first, joined, ?_, ?_, rfl, rfl⟩
  · simp [hraw]
  · rw [if_pos (Nat.le_of_eq hlength), hraw', hlength, ← hlength']
    simp

theorem sameLine_second : w.SameLine second.number joined.number := by
  refine ⟨before.length + 1, second, joined, ?_, ?_, rfl, rfl⟩
  · simp [hraw]
  · rw [if_neg (by omega), Nat.add_sub_cancel, hlength, ← hlength', hraw']
    simp

theorem forall₂_before (htexts : before.map (·.text) = before'.map (·.text)) :
    List.Forall₂ (SourceLine.Alike w.SameLine) before before' := by
  refine forall₂_alike_of_texts htexts fun k l l' hl hl' _ => ?_
  obtain ⟨hk, -⟩ := List.getElem?_eq_some_iff.mp hl
  refine ⟨k, l, l', ?_, ?_, rfl, rfl⟩
  · rw [hraw, List.getElem?_append_left hk, hl]
  · rw [if_pos (by omega), hraw', List.getElem?_append_left (by omega), hl']

theorem forall₂_after (htexts : after.map (·.text) = after'.map (·.text)) :
    List.Forall₂ (SourceLine.Alike w.SameLine) after after' := by
  refine forall₂_alike_of_texts htexts fun k l l' hl hl' _ => ?_
  refine ⟨before.length + (k + 2), l, l', ?_, ?_, rfl, rfl⟩
  · rw [hraw, List.getElem?_append_right (Nat.le_add_right _ _), Nat.add_sub_cancel_left]
    exact hl
  · rw [if_neg (by omega), hraw', List.getElem?_append_right (by omega),
      show before.length + (k + 2) - 1 - before'.length = k + 1 by omega]
    exact hl'

end Lines

theorem exists_joined (w : OneLine raw raw') :
    ∃ c padded, '\n' ∉ c :: w.statement ∧ List.Forall₂ Source.Pads raw.significantLines padded ∧
      Source.shift raw.significantLines padded w.joint = w.joint ∧
      Source.Joined w.SameLine w.directive c w.statement w.joint padded raw'.significantLines := by
  obtain ⟨before, rest, hraw, hbefore, hrest⟩ := List.map_eq_append_iff.mp w.two
  obtain ⟨first, rest, rfl, hfirst, htail⟩ := List.map_eq_cons_iff.mp hrest
  obtain ⟨second, after, rfl, hsecond, hafter⟩ := List.map_eq_cons_iff.mp htail
  obtain ⟨before', rest', hraw', hbefore', hrest'⟩ := List.map_eq_append_iff.mp w.one
  obtain ⟨joined, after', rfl, hjoined, hafter'⟩ := List.map_eq_cons_iff.mp hrest'
  obtain ⟨back, c, hspace⟩ := (List.eq_nil_or_concat' w.space).resolve_left w.space_ne_nil
  have hlength : before.length = w.before.length := by simp [← hbefore]
  have hlength' : before'.length = w.before.length := by simp [← hbefore']
  have hjoint : w.joint = (Source.textOf before).length + first.text.length := by
    rw [joint, ← hbefore, List.flatMap_map, hfirst]
    rfl
  have hblank := w.blank
  rw [hspace] at hblank
  have hback : Blank back := fun d hd => hblank d (List.mem_append_left _ hd)
  have hc : isBlank c = true := hblank c (by simp)
  have htext : joined.text = first.text ++ back ++ c :: second.text := by
    rw [hjoined, hfirst, hsecond, hspace]
    simp
  have hline : ∀ l ∈ raw.significantLines, '\n' ∉ l.text :=
    fun l => Source.newline_not_mem_significantLines
  have hmem : joined ∈ raw'.significantLines := by simp [hraw']
  have hline' := Source.newline_not_mem_significantLines hmem
  rw [htext] at hline'
  rw [hraw] at hline
  refine ⟨c, before ++ ⟨first.number, first.text ++ back⟩ :: second :: after, ?_, ?_, ?_, ?_⟩
  · rw [← hsecond]
    exact fun hmem => hline' (List.mem_append_right _ hmem)
  · have hsame : ∀ ls : List SourceLine, (∀ l ∈ ls, '\n' ∉ l.text) →
        List.Forall₂ Source.Pads ls ls :=
      fun ls hls => List.forall₂_same.mpr fun l hl => .refl (hls l hl)
    rw [hraw]
    refine List.rel_append (hsame before fun l hl => hline l (by simp [hl])) (.cons ?_ ?_)
    · exact ⟨rfl, ⟨back, hback, rfl⟩, fun hmem => hline' (List.mem_append_left _ hmem)⟩
    · exact hsame (second :: after) fun l hl =>
        hline l (List.mem_append_right _ (List.mem_cons_of_mem _ hl))
  · rw [hraw, hjoint, Source.shift_append, Source.shift_of_le (Nat.le_refl _)]
  · have hdirective : w.directive = first.text := hfirst.symm
    rw [hraw', hjoint, hdirective]
    refine .append (forall₂_before hraw hraw' hlength hlength' (hbefore.trans hbefore'.symm))
      (.here ?_ hsecond ?_)
    · have hfirst := sameLine_first hraw hraw' hlength hlength'
      exact ⟨⟨back, hback, rfl⟩, hc, htext, hfirst, sameLine_second hraw hraw' hlength hlength'⟩
    · exact forall₂_after hraw hraw' hlength hlength' (hafter.trans hafter'.symm)

theorem program_alike (w : OneLine raw raw') (hlocated : w.Located) (houtside : w.Outside) :
    Alike Eq (fun x y => List.Forall₂ (SourceLine.Alike w.SameLine) x.1 y.1 ∧
      CodeBlocks.Alike w.SameLine (List.Forall₂ (SourceLine.Alike w.SameLine)) x.2 y.2)
        (Source.normalize raw).program (Source.normalize raw').program := by
  obtain ⟨c, padded, hline, hpads, hjoint, hjoined⟩ := w.exists_joined
  rw [Source.program_normalize, Source.program_normalize, ← Source.program_of_pads hpads]
  refine hjoined.program_alike hline w.parsed hlocated fun body hbody => ?_
  rw [Source.bodies_shift hpads, List.mem_map] at hbody
  obtain ⟨body, hbody, rfl⟩ := hbody
  have hout := houtside body hbody
  rw [← hjoint]
  simp only [Span.map, Source.shift_le_shift_iff hpads]
  omega

end OneLine

theorem assemble_one_line (bus : Bus) (pad : Bool) (w : OneLine raw raw') (hlocated : w.Located)
    (houtside : w.Outside) :
    Traced.Alike (Event.Alike w.SameLine) (Error.Alike w.SameLine) (Assembly.Alike w.SameLine)
      (assemble bus pad raw) (assemble bus pad raw') := by
  unfold assemble
  refine .bind (.ofExcept (w.program_alike hlocated houtside).bare) ?_
  rintro ⟨head, program⟩ ⟨head', program'⟩ ⟨hhead, hprogram⟩
  dsimp only at hhead hprogram ⊢
  rw [isSome_eq_of_rel hprogram.interrupt, hprogram.orgs.length_eq]
  refine .bind (.tell (.same _)) fun _ _ _ => ?_
  have hempty : Labels.Alike w.SameLine .empty .empty := ⟨.nil, .nil⟩
  refine (Constants.collect_alike hhead hempty).bind fun labels labels' hlabels => ?_
  rw [hlabels.consts.length_eq]
  exact .bind (.tell (.same _)) fun _ _ _ => Program.build_alike hprogram hlabels

def tableSource : Text :=
  [".head", ".endhead", ".code", ".main", "JMP table", ".endmain", "  .org %1024 // $400",
    "lda #%3", "table:", "STA $1234", ".endorg", ".endcode"].flatMap (·.toList ++ ['\n'])

def joinedTableSource : Text :=
  [".head", ".endhead", ".code", ".main", "JMP table", ".endmain", "  .org %1024\tlda #%3",
    "table:", "STA $1234", ".endorg", ".endcode"].flatMap (·.toList ++ ['\n'])

def tableLines : OneLine tableSource joinedTableSource where
  before := [".HEAD", ".ENDHEAD", ".CODE", ".MAIN", "JMP TABLE", ".ENDMAIN"].map String.toList
  location := "%1024".toList
  literal := ⟨.dec, 1024⟩
  space := ['\t']
  statement := "LDA #%3".toList
  after := ["TABLE:", "STA $1234", ".ENDORG", ".ENDCODE"].map String.toList

theorem assemble_one_line_tableLines :
    tableLines.Located ∧ tableLines.Outside ∧
      ∃ a a', (assemble sampleBus true tableSource).result = .ok a ∧
        (assemble sampleBus true joinedTableSource).result = .ok a' ∧
        Assembly.Alike tableLines.SameLine a a' := by
  have hlocated : tableLines.Located := by
    intro r
    cases r <;> decide
  have houtside : tableLines.Outside := by
    unfold OneLine.Outside
    decide +kernel
  have hok : (assembleInOrder? sampleBus true tableSource).isSome = true := by decide +kernel
  obtain ⟨a, ha⟩ := Option.isSome_iff_exists.mp hok
  obtain ⟨a', ha', halike⟩ :=
    (assemble_one_line sampleBus true tableLines hlocated houtside).result.exists_ok
      (assemble_of_inOrder? ha)
  exact ⟨hlocated, houtside, a, a', assemble_of_inOrder? ha, ha', halike⟩

def operandSource : Text :=
  [".head", ".endhead", ".code", ".main", ".endmain", ".org %1024", "LDA $500", ".endorg",
    ".endcode"].flatMap (·.toList ++ ['\n'])

def joinedOperandSource : Text :=
  [".head", ".endhead", ".code", ".main", ".endmain", ".org %1024 LDA $500", ".endorg",
    ".endcode"].flatMap (·.toList ++ ['\n'])

def operandLines : OneLine operandSource joinedOperandSource where
  before := [".HEAD", ".ENDHEAD", ".CODE", ".MAIN", ".ENDMAIN"].map String.toList
  location := "%1024".toList
  literal := ⟨.dec, 1024⟩
  statement := "LDA $500".toList
  after := [".ENDORG", ".ENDCODE"].map String.toList

def mainSource : Text :=
  [".head", ".endhead", ".code", ".main", ".org $400", "NOP", ".endorg", ".endmain",
    ".endcode"].flatMap (·.toList ++ ['\n'])

def joinedMainSource : Text :=
  [".head", ".endhead", ".code", ".main", ".org $400 NOP", ".endorg", ".endmain",
    ".endcode"].flatMap (·.toList ++ ['\n'])

def mainLines : OneLine mainSource joinedMainSource where
  before := [".HEAD", ".ENDHEAD", ".CODE", ".MAIN"].map String.toList
  location := "$400".toList
  literal := ⟨.hex, 1024⟩
  statement := "NOP".toList
  after := [".ENDORG", ".ENDMAIN", ".ENDCODE"].map String.toList

def headSource : Text :=
  [".head", ".code", ".main", ".endmain", ".org $400", "A=B:", ".endorg", ".endcode",
    ".endhead"].flatMap (·.toList ++ ['\n'])

def joinedHeadSource : Text :=
  [".head", ".code", ".main", ".endmain", ".org $400 A=B:", ".endorg", ".endcode",
    ".endhead"].flatMap (·.toList ++ ['\n'])

def headLines : OneLine headSource joinedHeadSource where
  before := [".HEAD", ".CODE", ".MAIN", ".ENDMAIN"].map String.toList
  location := "$400".toList
  literal := ⟨.hex, 1024⟩
  statement := "A=B:".toList
  after := [".ENDORG", ".ENDCODE", ".ENDHEAD"].map String.toList

theorem not_forall_one_line :
    (operandLines.Outside ∧ ∃ a a', (assemble sampleBus false operandSource).result = .ok a ∧
      (assemble sampleBus false joinedOperandSource).result = .ok a' ∧
      a.sections.map (·.base) = [0, 1024] ∧ a'.sections.map (·.base) = [0, 1280] ∧
      a.image.words.length = 1027 ∧ a'.image.words.length = 1280) ∧
    (mainLines.Located ∧
      (assemble sampleBus false mainSource).result =
        .error ((Fault.unknownOperation ".ORG".toList).onLine (.code .main) 5) ∧
      (assemble sampleBus false joinedMainSource).result =
        .error ((Fault.malformed ".ORG $400 NOP".toList).onLine (.code .main) 5)) ∧
    headLines.Located ∧
      (assemble sampleBus false headSource).result =
        .error ((Fault.invalidConstant "A".toList "B:".toList).onLine .head 6) ∧
      (assemble sampleBus false joinedHeadSource).result =
        .error ((Fault.invalidLabel ".ORG$400A".toList).onLine .head 5) := by
  refine ⟨⟨?_, ?_⟩, ⟨?_, by decide +kernel, by decide +kernel⟩, ?_, by decide +kernel,
    by decide +kernel⟩
  · unfold OneLine.Outside
    decide +kernel
  · have h : (assembleInOrder? sampleBus false operandSource).any (fun a =>
        a.sections.map (·.base) = [0, 1024] ∧ a.image.words.length = 1027) = true := by
      decide +kernel
    have h' : (assembleInOrder? sampleBus false joinedOperandSource).any (fun a =>
        a.sections.map (·.base) = [0, 1280] ∧ a.image.words.length = 1280) = true := by
      decide +kernel
    obtain ⟨a, ha, hchecks⟩ := (Option.any_eq_true _ _).mp h
    obtain ⟨a', ha', hchecks'⟩ := (Option.any_eq_true _ _).mp h'
    obtain ⟨hbases, hlength⟩ := of_decide_eq_true hchecks
    obtain ⟨hbases', hlength'⟩ := of_decide_eq_true hchecks'
    exact ⟨a, a', assemble_of_inOrder? ha, assemble_of_inOrder? ha', hbases, hbases', hlength,
      hlength'⟩
  · intro r
    cases r <;> decide
  · intro r
    cases r <;> decide

end CrossAssembler
