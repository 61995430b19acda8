import CrossAssembler.Proofs.Assembly.ImageContent
import CrossAssembler.Proofs.Assembly.Symbols

namespace CrossAssembler

open Section

variable {bus : Bus} {pad : Bool} {raw : Text} {a : Assembly}

def SectionKind.first : SectionKind → Nat
  | .main => 0
  | .interrupt => mainEnd
  | .org _ => interruptEnd

theorem SectionKind.first_lt_of_isFixed (bus : Bus) {kind : SectionKind} (h : kind.isFixed = true) :
    kind.first < interruptEnd ∧ kind.limit bus ≤ interruptEnd := by
  cases kind with
  | main => exact ⟨by decide, (by decide : mainEnd ≤ interruptEnd)⟩
  | interrupt => exact ⟨by decide, Nat.le_refl interruptEnd⟩
  | org location => simp [isFixed, window?] at h

theorem SectionKind.limit_of_not_isFixed {kind : SectionKind} (h : kind.isFixed = false) :
    kind.limit bus = bus.space - 1 := by
  cases kind with
  | main => simp [isFixed, window?] at h
  | interrupt => simp [isFixed, window?] at h
  | org location => rfl

theorem Section.Settled.base_eq {s : Section} (h : s.Settled bus) (hfixed : s.kind.isFixed = true) :
    s.base = s.kind.first := by
  unfold Settled at h
  cases hkind : s.kind with
  | main =>
      simp only [hkind] at h
      exact h.1
  | interrupt =>
      simp only [hkind] at h
      exact h.1
  | org location => simp [hkind, SectionKind.isFixed, SectionKind.window?] at hfixed

theorem Section.Settled.lastStop_le {s : Section} (h : s.Settled bus) :
    Image.lastStop pad s ≤ s.kind.limit bus := by
  unfold Settled at h
  cases hkind : s.kind with
  | main =>
      simp only [hkind] at h
      cases pad <;> simp [Image.lastStop, hkind, SectionKind.window?, SectionKind.limit, h.2]
  | interrupt =>
      simp only [hkind] at h
      cases pad <;> simp [Image.lastStop, hkind, SectionKind.window?, SectionKind.limit, h.2]
  | org location =>
      simp only [hkind] at h
      obtain ⟨hlocation, hfits⟩ := h
      obtain ⟨l, -, hl, hbase⟩ := orgBase_eq_ok_iff.mp hlocation
      have hroom : s.base < bus.space := hbase ▸ Literal.fits_iff.mp hl
      have hstop : s.stop ≤ bus.space - 1 := by
        rcases hfits with hnone | hlt
        · simp only [Section.stop, Section.size, hnone, List.length_nil]
          omega
        · omega
      cases pad <;>
        simpa [Image.lastStop, hkind, SectionKind.window?, SectionKind.limit] using hstop

theorem Image.stop_le_lastStop (pad : Bool) (s : Section) : s.stop ≤ lastStop pad s := by
  unfold lastStop
  split
  · exact Nat.le_max_right _ _
  · exact Nat.le_refl _

namespace Run

theorem first_le_base (run : Run bus pad raw a) {s : Section} (hs : s ∈ a.sections) :
    s.kind.first ≤ s.base := by
  have hs := run.mem_sections_iff.mp hs
  cases hfixed : s.kind.isFixed with
  | true => exact Nat.le_of_eq ((run.settled hs).base_eq hfixed).symm
  | false =>
      have hbase := (Layout.validate_eq_ok_iff.mp run.valid).1 s hs hfixed
      cases hkind : s.kind with
      | main => simp [hkind, SectionKind.isFixed, SectionKind.window?] at hfixed
      | interrupt => simp [hkind, SectionKind.isFixed, SectionKind.window?] at hfixed
      | org location => exact hbase

theorem stop_le_limit (run : Run bus pad raw a) {s : Section} (hs : s ∈ a.sections) :
    s.stop ≤ s.kind.limit bus :=
  Nat.le_trans (Image.stop_le_lastStop pad s)
    (run.settled (run.mem_sections_iff.mp hs)).lastStop_le

theorem exists_last (run : Run bus pad raw a) :
    ∃ last ∈ a.sections, (∀ s ∈ a.sections, s.base ≤ last.base) ∧
      a.image.words.length ≤ last.kind.limit bus := by
  obtain ⟨main, hmain, -⟩ := run.exists_main
  obtain ⟨last, hlast, hget, hle⟩ :=
    Image.exists_last run.pairwise_base_le (List.ne_nil_of_mem hmain)
  have hsettled := run.settled (run.mem_sections_iff.mp hlast)
  have hstop : Image.lastStop pad last ≤ last.kind.limit bus := hsettled.lastStop_le
  refine ⟨last, hlast, hle, ?_⟩
  rw [run.length_words]
  simpa [Image.total, hget] using hstop

theorem length_words_le_interruptEnd (run : Run bus pad raw a)
    (h : ∀ s ∈ a.sections, s.kind.isFixed = true) : a.image.words.length ≤ interruptEnd := by
  obtain ⟨last, hlast, -, hlength⟩ := run.exists_last
  exact Nat.le_trans hlength (SectionKind.first_lt_of_isFixed bus (h last hlast)).2

theorem length_words_lt_space (run : Run bus pad raw a) {s : Section} (hs : s ∈ a.sections)
    (horg : s.kind.isFixed = false) : a.image.words.length ≤ bus.space - 1 := by
  obtain ⟨last, hlast, hmax, hlength⟩ := run.exists_last
  have hbase := (Layout.validate_eq_ok_iff.mp run.valid).1 s (run.mem_sections_iff.mp hs) horg
  cases hfixed : last.kind.isFixed with
  | true =>
      have hsettled := run.settled (run.mem_sections_iff.mp hlast)
      have hfirst := (SectionKind.first_lt_of_isFixed bus hfixed).1
      rw [← hsettled.base_eq hfixed] at hfirst
      have := hmax s hs
      omega
  | false => rwa [SectionKind.limit_of_not_isFixed hfixed] at hlength

theorem exists_declaration (run : Run bus pad raw a) {name : Text} {c : CodeLabel}
    (h : (name, c) ∈ a.labels.codes) :
    ∃ s ∈ a.sections, ∃ r ∈ s.rows, r.declared? = some name ∧
      c = ⟨r.line, s.kind, s.base + r.offset⟩ ∧ r.offset ≤ s.size ∧
      s.base + r.offset < s.kind.limit bus := by
  rw [run.codes_eq, List.mem_flatMap] at h
  obtain ⟨s, hs, hdeclared⟩ := h
  obtain ⟨r, hr, hname, hc⟩ := mem_declarations.mp hdeclared
  have hoffset := (run.listed hs).offset_add_size_le hr
  refine ⟨s, run.mem_sections_iff.mpr hs, r, hr, hname, hc, ?_, run.declared_lt_limit hs hr hname⟩
  rw [Section.size]
  omega

end Run

theorem assemble_placement_bounds (h : (assemble bus pad raw).result = .ok a) :
    (∀ s ∈ a.sections, ∀ (k : Nat) (w : Word), s.words[k]? = some w →
      s.kind.first ≤ s.base + k ∧ s.base + k < s.kind.limit bus) ∧
    (∀ (name : Text) (c : CodeLabel), (name, c) ∈ a.labels.codes →
      ∃ s ∈ a.sections, ∃ r ∈ s.rows, Statement.parse r.code = .ok (.label name) ∧
        c.line = r.line ∧ c.kind = s.kind ∧ s.base ≤ c.address ∧ c.address ≤ s.stop ∧
        c.address < s.kind.limit bus) ∧
    (a.sections.Pairwise fun s t => ∀ addr, ¬(s.contains addr = true ∧ t.contains addr = true)) ∧
    ((¬∃ s ∈ a.sections, ∃ location, s.kind = .org location) →
      a.image.words.length ≤ interruptEnd) ∧
    ((∃ s ∈ a.sections, ∃ location, s.kind = .org location) →
      a.image.words.length ≤ bus.space - 1) ∧
    a.image.words.length ≤ Image.maxWords := by
  obtain ⟨run⟩ := assemble_eq_ok_iff.mp h
  refine ⟨fun s hs k w hk => ?_, fun name c hc => ?_, ?_, fun hnone => ?_, ?_, ?_⟩
  · obtain ⟨hlt, -⟩ := List.getElem?_eq_some_iff.mp hk
    have hfirst := run.first_le_base hs
    have hlimit := run.stop_le_limit hs
    rw [Section.stop, Section.size] at hlimit
    omega
  · obtain ⟨s, hs, r, hr, hname, rfl, hoffset, hlimit⟩ := run.exists_declaration hc
    exact ⟨s, hs, r, hr, Row.declared?_eq_some_iff.mp hname, rfl, rfl, Nat.le_add_right _ _,
      Nat.add_le_add_left hoffset s.base, hlimit⟩
  · refine run.pairwise_stop_le_base.imp fun {s t} hst addr hboth => ?_
    have hs := contains_iff.mp hboth.1
    have ht := contains_iff.mp hboth.2
    omega
  · apply run.length_words_le_interruptEnd
    intro s hs
    cases hkind : s.kind with
    | main => rfl
    | interrupt => rfl
    | org location => exact absurd ⟨s, hs, location, hkind⟩ hnone
  · rintro ⟨s, hs, location, hkind⟩
    exact run.length_words_lt_space hs (by rw [hkind]; rfl)
  · rw [run.length_words, run.sorted]
    exact (Image.words_of_link run.linked).1

theorem assemble_placement_bounds_sampleSource :
    ∃ a, (assemble sampleBus true sampleSource).result = .ok a ∧
      (∃ s ∈ a.sections, s.kind = .org "$400".toList ∧
        s.words[2]? = some (.label "START".toList .high) ∧
        interruptEnd ≤ s.base + 2 ∧ s.base + 2 < 65535) ∧
      (∃ s ∈ a.sections, ∃ r ∈ s.rows,
        Statement.parse r.code = .ok (.label "HANDLER".toList) ∧ r.line = 11 ∧
        s.kind = .interrupt ∧ s.base ≤ 256 ∧ 256 ≤ s.stop ∧ 256 < interruptEnd) ∧
      (a.sections.Pairwise fun s t => ∀ addr, ¬(s.contains addr = true ∧ t.contains addr = true)) ∧
      a.image.words.length ≤ 65535 ∧ a.image.words.length ≤ Image.maxWords := by
  obtain ⟨a, ha, hsections, hlabels, -⟩ := exists_assemble_sampleSource
  obtain ⟨hwords, hbound, hdisjoint, -, horgs, hmax⟩ := assemble_placement_bounds ha
  have horg : sampleSections[2] ∈ a.sections := by rw [hsections]; decide +kernel
  have hword : sampleSections[2].words[2]? = some (.label "START".toList .high) := rfl
  obtain ⟨hfirst, hlimit⟩ := hwords _ horg 2 _ hword
  have hhandler : ("HANDLER".toList, ⟨11, .interrupt, 256⟩) ∈ a.labels.codes := by
    rw [hlabels]
    decide +kernel
  obtain ⟨s, hs, r, hr, hname, hline, hkind, hbase, hstop, hbelow⟩ := hbound _ _ hhandler
  rw [← hkind] at hbelow
  refine ⟨a, ha, ⟨_, horg, rfl, hword, hfirst, hlimit⟩,
    ⟨s, hs, r, hr, hname, hline.symm, hkind.symm, hbase, hstop, hbelow⟩, hdisjoint, ?_, hmax⟩
  exact horgs ⟨_, horg, _, rfl⟩

end CrossAssembler
