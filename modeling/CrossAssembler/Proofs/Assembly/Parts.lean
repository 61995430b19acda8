import CrossAssembler.Proofs.Assembly.Run
import CrossAssembler.Proofs.Section.Listing
import CrossAssembler.Proofs.Source.Extent

namespace CrossAssembler

open Section Sequence

variable {bus : Bus} {pad : Bool} {raw : Text} {a : Assembly}

def Section.part (s : Section) : SectionKind × List SourceLine :=
  (s.kind, s.rows.map Row.source)

theorem SectionsEncode.map_part {labels labels' : Labels} {sites : List (Site × List SourceLine)}
    {sections : List Section} (h : SectionsEncode bus labels sites labels' sections) :
    sections.map Section.part = sites.map fun x => (x.1.kind, x.2) := by
  induction h with
  | nil => rfl
  | cons head _ ih =>
      rw [List.map_cons, List.map_cons, ih, Section.part, head.map_source]

theorem Program.Placed.map_part {p : Program} {sites : List (Site × List SourceLine)}
    (h : p.Placed bus sites) : (sites.map fun x => (x.1.kind, x.2)) = p.parts := by
  obtain ⟨orgs, horgs, rfl⟩ := h
  have hparts : (orgs.map fun x => (x.1.kind, x.2)) =
      p.orgs.map fun org => (SectionKind.org org.location, org.body) := by
    apply map_eq_of_forall₂
    refine horgs.imp ?_
    rintro org x ⟨base, -, rfl⟩
    rfl
  simp [CodeBlocks.parts, mainSite, interruptSite, hparts, Function.comp_def]

namespace Run

theorem map_part (run : Run bus pad raw a) : run.sections.map Section.part = run.program.parts :=
  run.encoded.map_part.trans run.placed.map_part

theorem perm_parts (run : Run bus pad raw a) :
    (a.sections.map Section.part).Perm run.program.parts := by
  rw [← run.map_part]
  exact run.perm_sections.map Section.part

theorem exists_program (run : Run bus pad raw a) :
    ∃ head program, (Source.normalize raw).program = .ok (head, program) ∧
      (a.sections.map Section.part).Perm program.parts :=
  ⟨run.head, run.program, run.split, run.perm_parts⟩

end Run

end CrossAssembler
