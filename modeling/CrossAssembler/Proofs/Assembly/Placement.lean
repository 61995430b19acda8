import CrossAssembler.Proofs.Assembly.Run
import CrossAssembler.Proofs.Layout.Separation
import CrossAssembler.Proofs.Sequence

namespace CrossAssembler

open Section Sequence

variable {bus : Bus} {pad : Bool} {raw : Text} {a : Assembly}

def Section.Settled (bus : Bus) (s : Section) : Prop :=
  match s.kind with
  | .main => s.base = 0 ∧ s.stop ≤ mainEnd
  | .interrupt => s.base = mainEnd ∧ s.stop ≤ interruptEnd
  | .org location => orgBase location bus = .ok s.base ∧ (s.words = [] ∨ s.stop < bus.space)

theorem SectionsEncode.forall₂ {labels labels' : Labels} {sites : List (Site × List SourceLine)}
    {sections : List Section} (h : SectionsEncode bus labels sites labels' sections) :
    List.Forall₂ (fun x s => s.kind = x.1.kind ∧ s.base = x.1.base ∧
      (s.words = [] ∨ s.stop ≤ x.1.limit)) sites sections := by
  induction h with
  | nil => exact .nil
  | cons head _ ih =>
      refine .cons ⟨rfl, rfl, ?_⟩ ih
      simpa [Section.stop, Section.size] using head.fits

namespace Program

theorem Placed.kinds {p : Program} {sites : List (Site × List SourceLine)}
    (h : p.Placed bus sites) :
    sites.map (·.1.kind) =
      .main :: ((p.interrupt.toList.map fun _ => .interrupt) ++ p.orgs.map (.org ·.location)) := by
  obtain ⟨orgs, horgs, rfl⟩ := h
  have : orgs.map (·.1.kind) = p.orgs.map (SectionKind.org ·.location) := by
    apply map_eq_of_forall₂
    refine horgs.imp ?_
    rintro org x ⟨base, -, rfl⟩
    rfl
  simp [mainSite, interruptSite, this, Function.comp_def]

theorem Placed.cases {p : Program} {sites : List (Site × List SourceLine)} (h : p.Placed bus sites)
    {x : Site × List SourceLine} (hx : x ∈ sites) :
    x.1 = mainSite ∨ x.1 = interruptSite ∨ ∃ org ∈ p.orgs, OrgSite bus org x := by
  obtain ⟨orgs, horgs, rfl⟩ := h
  simp only [List.mem_cons, List.mem_append, List.mem_map] at hx
  rcases hx with rfl | ⟨body, -, rfl⟩ | hx
  · exact .inl rfl
  · exact .inr (.inl rfl)
  · exact .inr (.inr (exists_of_forall₂_of_mem horgs hx))

end Program

namespace SectionsEncode

variable {labels labels' : Labels} {p : Program} {sites : List (Site × List SourceLine)}
  {sections : List Section}

theorem kinds (h : SectionsEncode bus labels sites labels' sections) (hplaced : p.Placed bus sites) :
    sections.map (·.kind) = .main :: ((p.interrupt.toList.map fun _ => .interrupt) ++
      p.orgs.map (.org ·.location)) := by
  rw [← hplaced.kinds]
  exact map_eq_of_forall₂ (h.forall₂.imp fun _ _ h => h.1)

theorem settled (h : SectionsEncode bus labels sites labels' sections)
    (hplaced : p.Placed bus sites) {s : Section} (hs : s ∈ sections) : s.Settled bus := by
  obtain ⟨x, hx, hkind, hbase, hfits⟩ := exists_of_forall₂_of_mem h.forall₂ hs
  have hspace : 0 < bus.space := Nat.two_pow_pos _
  have hempty : s.words = [] → s.stop = s.base := by
    intro h
    simp [Section.stop, Section.size, h]
  rcases hplaced.cases hx with hsite | hsite | ⟨org, -, base, hlocation, rfl⟩
  · simp only [hsite, Program.mainSite] at hkind hbase hfits
    simp only [Settled, hkind, hbase, true_and]
    rcases hfits with hnone | hfits
    · rw [hempty hnone, hbase]
      exact Nat.zero_le _
    · exact hfits
  · simp only [hsite, Program.interruptSite] at hkind hbase hfits
    simp only [Settled, hkind, hbase, true_and]
    rcases hfits with hnone | hfits
    · rw [hempty hnone, hbase]
      decide
    · exact hfits
  · simp only at hkind hbase hfits
    simp only [Settled, hkind, hbase]
    exact ⟨hlocation, hfits.imp_right fun h => by omega⟩

theorem pairwise_clear (h : SectionsEncode bus labels sites labels' sections)
    (hplaced : p.Placed bus sites) (hvalid : Layout.validate sections = .ok ()) :
    sections.Pairwise Section.Clear := by
  have hkinds : (sections.map (·.kind)).Pairwise fun k l =>
      k.isFixed → l.isFixed → k = .main ∧ l = .interrupt := by
    rw [h.kinds hplaced]
    cases p.interrupt <;>
      simp [List.pairwise_map, SectionKind.isFixed, SectionKind.window?, List.pairwise_of_forall]
  rw [List.pairwise_map] at hkinds
  refine List.Pairwise.imp_of_mem ?_ ((Layout.validate_eq_ok_iff.mp hvalid).2.and hkinds)
  rintro s t hs ht ⟨hfixed | hclear, hst⟩
  · obtain ⟨hmain, hinterrupt⟩ := hst hfixed.1 hfixed.2
    have hs := h.settled hplaced hs
    have ht := h.settled hplaced ht
    simp only [Settled, hmain, hinterrupt] at hs ht
    have hwindow : 0 < mainEnd := by decide
    rw [Section.Clear, contains_eq_false_iff, contains_eq_false_iff]
    omega
  · exact hclear

end SectionsEncode

namespace Run

theorem kinds (run : Run bus pad raw a) :
    run.sections.map (·.kind) = .main :: ((run.program.interrupt.toList.map fun _ => .interrupt) ++
      run.program.orgs.map (.org ·.location)) :=
  run.encoded.kinds run.placed

theorem settled (run : Run bus pad raw a) {s : Section} (hs : s ∈ run.sections) :
    s.Settled bus :=
  run.encoded.settled run.placed hs

theorem pairwise_clear (run : Run bus pad raw a) : run.sections.Pairwise Section.Clear :=
  run.encoded.pairwise_clear run.placed run.valid

end Run

end CrossAssembler
