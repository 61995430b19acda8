import CrossAssembler.Proofs.Assembly.Renumbering
import CrossAssembler.Proofs.Assembly.Run
import CrossAssembler.Proofs.Source.Normalization
import CrossAssembler.Proofs.Source.Padding

namespace CrossAssembler

open Outcome Text

namespace Text

variable {t : Text}

def core (line : Text) : Text :=
  trim (upper (uncomment (trimStart line)))

def significantLines (raw : Text) : List SourceLine :=
  ((raw.lines.zipIdx 1).map fun x => ⟨x.2, core x.1⟩).filter fun l => !l.text.isEmpty

def SameLine (raw raw' : Text) (n n' : Nat) : Prop :=
  ∃ (k : Nat) (code : Text), raw.significantLines[k]? = some ⟨n, code⟩ ∧
    raw'.significantLines[k]? = some ⟨n', code⟩

theorem exists_trim_append_of_head (h : ∃ c ∈ t.head?, isBlank c = false) :
    ∃ back, Blank back ∧ t = trim t ++ back := by
  obtain ⟨c, hc, hblank⟩ := h
  have ht : ¬Blank t := fun hall => by simp [hall c (List.mem_of_mem_head? hc)] at hblank
  obtain ⟨front, back, hfront, hback, -, heq⟩ := exists_trim_append ht
  cases front with
  | nil => exact ⟨back, hback, heq⟩
  | cons d front =>
      rw [heq] at hc
      obtain rfl : d = c := by simpa using hc
      simp [hfront d List.mem_cons_self] at hblank

theorem head_trimStart {c : Char} {rest : Text} (h : trimStart t = c :: rest) :
    isBlank c = false := by
  have hhead : (t.dropWhile isBlank).head? = some c := by
    rw [← trimStart, h]
    rfl
  have hnot := List.head?_dropWhile_not isBlank t
  rw [hhead] at hnot
  simpa using hnot

theorem head_upper_uncomment {line : Text} (h : ¬Blank (uncomment (trimStart line))) :
    ∃ c ∈ (upper (uncomment (trimStart line))).head?, isBlank c = false := by
  cases htrim : trimStart line with
  | nil => simp [htrim, uncomment, Blank] at h
  | cons c rest =>
      have hc := head_trimStart htrim
      rw [htrim] at h
      obtain ⟨rest', hcode⟩ : ∃ rest', uncomment (c :: rest) = c :: rest' := by
        unfold uncomment at h ⊢
        split
        · simp_all
        · simp_all [Blank]
        · rename_i heq
          obtain ⟨rfl, rfl⟩ := List.cons.inj heq
          exact ⟨_, rfl⟩
      obtain ⟨d, ds, hup⟩ := List.exists_cons_of_ne_nil (upperChar_ne_nil c)
      rw [hcode, upper_cons, hup]
      exact ⟨d, rfl, isBlank_of_mem_upperChar hc (hup ▸ List.mem_cons_self)⟩

end Text

namespace Source

theorem forall₂_pads_significant (n : Nat) {ls : List Text} (h : ∀ l ∈ ls, '\n' ∉ l) :
    List.Forall₂ Pads
      (((ls.zipIdx n).map fun x => (⟨x.2, core x.1⟩ : SourceLine)).filter fun l => !l.text.isEmpty)
      (significant n ls) := by
  induction ls generalizing n with
  | nil => exact .nil
  | cons l ls ih =>
      have hrest := ih (n + 1) fun l' hl' => h l' (List.mem_cons_of_mem l hl')
      rw [List.zipIdx_cons, List.map_cons]
      by_cases hblank : Blank (uncomment (trimStart l))
      · have hnone : l.significant? = none := by
          unfold significant?
          rw [if_pos (List.all_eq_true.mpr hblank)]
        have hcore : core l = [] := by rw [core, hblank.upper_eq, hblank.trim_eq]
        rw [significant_cons_none hnone, List.filter_cons_of_neg (by simp [hcore])]
        exact hrest
      · have hsome : l.significant? = some (upper (uncomment (trimStart l))) := by
          unfold significant?
          rw [if_neg (mt List.all_eq_true.mp hblank)]
        obtain ⟨back, hback, heq⟩ := exists_trim_append_of_head (head_upper_uncomment hblank)
        have hline : '\n' ∉ upper (uncomment (trimStart l)) := by
          intro hmem
          have hmem := (uncomment_isPrefix _).subset (mem_of_mem_upper (by decide) hmem)
          exact h l List.mem_cons_self ((List.dropWhile_suffix isBlank).subset hmem)
        have hne : core l ≠ [] := by
          intro hnil
          rw [core] at hnil
          rw [hnil, List.nil_append] at heq
          obtain ⟨c, hc, hnot⟩ := head_upper_uncomment hblank
          rw [heq] at hc
          simp [hback c (List.mem_of_mem_head? hc)] at hnot
        rw [significant_cons_some hsome, List.filter_cons_of_pos (by simpa using hne)]
        exact .cons ⟨rfl, ⟨back, hback, heq⟩, hline⟩ hrest

theorem newline_not_mem_significantLines {raw : Text} {l : SourceLine}
    (h : l ∈ raw.significantLines) : '\n' ∉ l.text := by
  have hpads := forall₂_pads_significant 1 fun _ hl => newline_not_mem_of_mem_lines (t := raw) hl
  obtain ⟨l', -, hl⟩ := Sequence.exists_of_forall₂_of_mem hpads.flip h
  exact hl.newline_not_mem

theorem program_normalize (raw : Text) :
    (normalize raw).program = program ⟨raw.significantLines⟩ :=
  program_of_pads (forall₂_pads_significant 1 fun _ hl => newline_not_mem_of_mem_lines hl)

end Source

variable {raw raw' : Text}

theorem forall₂_alike_of_texts {R : Nat → Nat → Prop} {ls ls' : List SourceLine}
    (h : ls.map (·.text) = ls'.map (·.text))
    (hR : ∀ (k : Nat) l l', ls[k]? = some l → ls'[k]? = some l' → l.text = l'.text →
      R l.number l'.number) : List.Forall₂ (SourceLine.Alike R) ls ls' := by
  refine List.forall₂_iff_get.mpr ⟨by simpa using congrArg List.length h, fun k hk hk' => ?_⟩
  have htext : (ls[k]?).map (·.text) = (ls'[k]?).map (·.text) := by
    rw [← List.getElem?_map, ← List.getElem?_map, h]
  rw [List.getElem?_eq_getElem hk, List.getElem?_eq_getElem hk', Option.map_some, Option.map_some,
    Option.some.injEq] at htext
  exact ⟨hR k _ _ (List.getElem?_eq_getElem hk) (List.getElem?_eq_getElem hk') htext, htext⟩

theorem forall₂_sameLine
    (h : raw.significantLines.map (·.text) = raw'.significantLines.map (·.text)) :
    List.Forall₂ (SourceLine.Alike (SameLine raw raw')) raw.significantLines
      raw'.significantLines := by
  refine forall₂_alike_of_texts h fun k l l' hl hl' htext => ⟨k, l.text, hl, ?_⟩
  rw [hl', htext]

theorem assemble_alike (bus : Bus) (pad : Bool)
    (h : raw.significantLines.map (·.text) = raw'.significantLines.map (·.text)) :
    Traced.Alike (Event.Alike (SameLine raw raw')) (Error.Alike (SameLine raw raw'))
      (Assembly.Alike (SameLine raw raw')) (assemble bus pad raw) (assemble bus pad raw') := by
  unfold assemble
  rw [Source.program_normalize, Source.program_normalize]
  refine .bind (.ofExcept (Source.program_alike (forall₂_sameLine h)).bare) ?_
  rintro ⟨head, program⟩ ⟨head', program'⟩ ⟨hhead, hprogram⟩
  have hsplit : Event.Alike (SameLine raw raw')
      (.split program.interrupt.isSome program.orgs.length)
      (.split program'.interrupt.isSome program'.orgs.length) := by
    rw [isSome_eq_of_rel hprogram.interrupt, hprogram.orgs.length_eq]
    exact .same _
  refine .bind (.tell hsplit) fun _ _ _ => ?_
  have hempty : Labels.Alike (SameLine raw raw') .empty .empty := ⟨.nil, .nil⟩
  refine (Constants.collect_alike hhead hempty).bind fun labels labels' hlabels => ?_
  have hcollected : Event.Alike (SameLine raw raw') (.collected labels.consts.length)
      (.collected labels'.consts.length) := by
    rw [hlabels.consts.length_eq]
    exact .same _
  exact .bind (.tell hcollected) fun _ _ _ => Program.build_alike hprogram hlabels

def spacedSource : Text :=
  ["// a sample", "", "  .Head", "step = %3 // three", "\t.endhead  ", ".code", "  .main // first",
    "start:", "    lda #Step", "    jmp handler\r", " ", ".endmain", ".interrupt", "handler: ",
    "    sta $1234", "    bzs start // again", ".endinterrupt", "  .org $400\t", "jsr start",
    ".endorg", "// done", ".endcode"].flatMap (·.toList ++ ['\r', '\n'])

theorem assemble_alike_spacedSource :
    ∃ a a', (assemble sampleBus true sampleSource).result = .ok a ∧
      (assemble sampleBus true spacedSource).result = .ok a' ∧
      Assembly.Alike (SameLine sampleSource spacedSource) a a' := by
  have h : sampleSource.significantLines.map (·.text) =
      spacedSource.significantLines.map (·.text) := by decide +kernel
  obtain ⟨a, ha, -⟩ := exists_assemble_sampleSource
  obtain ⟨a', ha', halike⟩ := (assemble_alike sampleBus true h).result.exists_ok ha
  exact ⟨a, a', ha, ha', halike⟩

end CrossAssembler
