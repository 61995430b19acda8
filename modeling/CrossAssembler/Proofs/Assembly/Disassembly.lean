import CrossAssembler.Proofs.Assembly.ImageContent
import CrossAssembler.Proofs.Assembly.Parts
import CrossAssembler.Proofs.Assembly.Symbols
import CrossAssembler.Proofs.Instruction.Disassembly

namespace CrossAssembler

variable {bus : Bus} {pad : Bool} {raw : Text} {a : Assembly}

theorem assemble_disassembly (h : (assemble bus pad raw).result = .ok a) :
    (∃ head program, (Source.normalize raw).program = .ok (head, program) ∧
      (a.sections.map Section.part).Perm program.parts) ∧
    ∀ s ∈ a.sections, (∀ r ∈ s.rows, ∀ param, r.instruction? ≠ some (.inc, param)) →
      ∃ code, disassemble bus ((a.image.words.drop s.base).take s.size) = some code ∧
        List.Forall₂ (Reads bus a.labels) (s.rows.filterMap (·.instruction?)) code := by
  obtain ⟨run⟩ := assemble_eq_ok_iff.mp h
  refine ⟨run.exists_program, fun s hs hinc => ?_⟩
  have hlisted := run.listed (run.mem_sections_iff.mp hs)
  exact hlisted.disassemble hinc (run.mapM_resolve hs) fun _ _ haddr => run.address?_lt haddr

def sampleDecoded : List (List Decoded) :=
  [[⟨.lda, .immediate, some 3⟩, ⟨.jmp, .absolute, some 256⟩],
    [⟨.sta, .absolute, some 4660⟩, ⟨.bzs, .absolute, some 0⟩],
    [⟨.jsr, .absolute, some 0⟩]]

theorem assemble_disassembly_sampleSource :
    ∃ a, (assemble sampleBus true sampleSource).result = .ok a ∧
      (∃ head program, (Source.normalize sampleSource).program = .ok (head, program) ∧
        (a.sections.map Section.part).Perm program.parts) ∧
      List.Forall₂ (fun s code =>
        (∀ r ∈ s.rows, ∀ param, r.instruction? ≠ some (.inc, param)) ∧
        disassemble sampleBus ((a.image.words.drop s.base).take s.size) = some code ∧
        List.Forall₂ (Reads sampleBus a.labels) (s.rows.filterMap (·.instruction?)) code)
        a.sections sampleDecoded := by
  obtain ⟨a, ha, hsections, -, hwords⟩ := exists_assemble_sampleSource
  obtain ⟨hparts, hread⟩ := assemble_disassembly ha
  rw [← hsections] at hwords
  have hslices : List.Forall₂ (fun s code => disassemble sampleBus
      ((a.image.words.drop s.base).take s.size) = some code) a.sections sampleDecoded := by
    have hdecoded : List.Forall₂ (fun slice code => disassemble sampleBus slice = some code)
        (a.sections.map fun s => (a.image.words.drop s.base).take s.size) sampleDecoded := by
      rw [hwords]
      exact .cons (by decide +kernel) (.cons (by decide +kernel) (.cons (by decide +kernel) .nil))
    exact List.forall₂_map_left_iff.mp hdecoded
  have hmnemonics : ∀ s ∈ sampleSections, ∀ r ∈ s.rows,
      r.instruction?.map Prod.fst ≠ some .inc := by decide +kernel
  have hinc : ∀ s ∈ a.sections, ∀ r ∈ s.rows, ∀ param, r.instruction? ≠ some (.inc, param) := by
    intro s hs r hr param hparam
    rw [hsections] at hs
    exact hmnemonics s hs r hr (by rw [hparam]; rfl)
  have hall := (List.forall₂_and_left _ _).mpr
    ⟨fun s hs => And.intro (hinc s hs) (hread s hs (hinc s hs)), hslices⟩
  refine ⟨a, ha, hparts, hall.imp ?_⟩
  rintro s code ⟨⟨hinc, code', hcode', hreads⟩, hcode⟩
  obtain rfl := Option.some.inj (hcode'.symm.trans hcode)
  exact ⟨hinc, hcode', hreads⟩

end CrossAssembler
