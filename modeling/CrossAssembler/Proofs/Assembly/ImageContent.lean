import CrossAssembler.Proofs.Assembly.Placement

namespace CrossAssembler

open Section

variable {bus : Bus} {pad : Bool} {raw : Text} {a : Assembly}

namespace Image

def reach (sections : List Section) : Nat :=
  (sections.map (·.stop)).foldr max 0

def lastWindowEnd (sections : List Section) : Nat :=
  ((sections.getLast?.bind (·.kind.window?)).map (·.2)).getD 0

theorem stop_le_reach {sections : List Section} {s : Section} (hs : s ∈ sections) :
    s.stop ≤ reach sections := by
  induction sections with
  | nil => simp at hs
  | cons t rest ih =>
      simp only [reach, List.map_cons, List.foldr_cons]
      rcases List.mem_cons.mp hs with rfl | hs
      · exact Nat.le_max_left _ _
      · exact Nat.le_trans (ih hs) (Nat.le_max_right _ _)

theorem reach_le {sections : List Section} {n : Nat} (h : ∀ s ∈ sections, s.stop ≤ n) :
    reach sections ≤ n := by
  induction sections with
  | nil => exact Nat.zero_le n
  | cons t rest ih =>
      simp only [reach, List.map_cons, List.foldr_cons]
      exact Nat.max_le.mpr ⟨h t List.mem_cons_self, ih fun s hs => h s (List.mem_cons_of_mem t hs)⟩

theorem total_eq {sections : List Section}
    (hapart : sections.Pairwise fun s t => s.stop ≤ t.base) :
    total pad sections =
      max (reach sections) (if pad then lastWindowEnd sections else 0) := by
  rcases List.eq_nil_or_concat' sections with rfl | ⟨init, last, rfl⟩
  · cases pad <;> rfl
  · have hreach : reach (init ++ [last]) = last.stop := by
      apply Nat.le_antisymm
      · apply reach_le
        intro s hs
        rcases List.mem_append.mp hs with hs | hs
        · have := (List.pairwise_append.mp hapart).2.2 s hs last (by simp)
          exact Nat.le_trans this (Nat.le_add_right _ _)
        · exact Nat.le_of_eq (by rw [List.mem_singleton.mp hs])
      · exact stop_le_reach (by simp)
    rw [hreach]
    simp only [total, lastWindowEnd, List.getLast?_concat, Option.map_some, Option.getD_some,
      Option.bind_some, lastStop]
    cases pad with
    | false => simp
    | true => cases last.kind.window? <;> simp [Nat.max_comm]

end Image

namespace Run

theorem mem_sections_iff (run : Run bus pad raw a) {s : Section} :
    s ∈ a.sections ↔ s ∈ run.sections :=
  run.perm_sections.mem_iff

theorem pairwise_base_le (run : Run bus pad raw a) :
    a.sections.Pairwise fun s t => s.base ≤ t.base := by
  rw [run.sorted]
  exact Image.pairwise_byBase _

theorem pairwise_stop_le_base (run : Run bus pad raw a) :
    a.sections.Pairwise fun s t => s.stop ≤ t.base := by
  rw [run.sorted]
  exact Image.pairwise_stop_le_base run.pairwise_clear

theorem exists_section (run : Run bus pad raw a) (kind : SectionKind)
    (h : kind ∈ run.sections.map (·.kind)) : ∃ s ∈ a.sections, s.kind = kind := by
  obtain ⟨s, hs, hkind⟩ := List.mem_map.mp h
  exact ⟨s, run.mem_sections_iff.mpr hs, hkind⟩

theorem exists_main (run : Run bus pad raw a) : ∃ s ∈ a.sections, s.kind = .main ∧ s.base = 0 := by
  obtain ⟨s, hs, hkind⟩ := run.exists_section .main (by simp [run.kinds])
  have hsettled := run.settled (run.mem_sections_iff.mp hs)
  simp only [Settled, hkind] at hsettled
  exact ⟨s, hs, hkind, hsettled.1⟩

theorem start_eq_zero (run : Run bus pad raw a) : Image.start a.sections = 0 := by
  obtain ⟨s, hs, -, hbase⟩ := run.exists_main
  obtain ⟨first, -, hfirst, hle⟩ := Image.exists_first run.pairwise_base_le (List.ne_nil_of_mem hs)
  have := hle s hs
  simp only [Image.start, hfirst, Option.map_some, Option.getD_some]
  omega

theorem length_words (run : Run bus pad raw a) :
    a.image.words.length = Image.total pad a.sections := by
  have hwords := (Image.words_of_link run.linked).2.2.length_eq
  rw [← run.sorted, Image.addresses, run.start_eq_zero, List.length_range'] at hwords
  exact hwords.symm

theorem valueAt_eq_ok (run : Run bus pad raw a) {addr : Nat}
    (haddr : addr < a.image.words.length) :
    Image.valueAt bus a.labels a.sections addr = .ok a.image.words[addr] := by
  obtain ⟨-, -, hwords⟩ := Image.words_of_link run.linked
  rw [← run.sorted] at hwords
  have hget := hwords.get (i := addr) (by rw [hwords.length_eq]; exact haddr) haddr
  simpa [Image.addresses, run.start_eq_zero] using hget

theorem cell_eq_ok (run : Run bus pad raw a) {s : Section} (hs : s ∈ a.sections) {addr : Nat}
    (hcontains : s.contains addr) (haddr : addr < a.image.words.length) :
    s.cell bus a.labels (addr - s.base) = .ok a.image.words[addr] := by
  rw [← Image.valueAt_of_contains run.pairwise_stop_le_base hs hcontains]
  exact run.valueAt_eq_ok haddr

theorem value_eq_zero (run : Run bus pad raw a) {addr : Nat}
    (hnone : ∀ s ∈ a.sections, s.contains addr = false) (haddr : addr < a.image.words.length) :
    a.image.words[addr] = 0 := by
  have hvalue := run.valueAt_eq_ok haddr
  rw [Image.valueAt_of_uncovered hnone] at hvalue
  exact (Except.ok.inj hvalue).symm

theorem eq_of_contains (run : Run bus pad raw a) {i j addr : Nat} {s t : Section}
    (hi : a.sections[i]? = some s) (hs : s.contains addr) (hj : a.sections[j]? = some t)
    (ht : t.contains addr) : j = i := by
  refine Sequence.index_unique (P := fun u => u.contains addr = true)
    (run.pairwise_stop_le_base.imp ?_) hi hs hj ht
  intro s t hst hs ht
  rw [contains_iff] at hs ht
  omega

theorem stop_le_length_words (run : Run bus pad raw a) {s : Section} (hs : s ∈ a.sections) :
    s.stop ≤ a.image.words.length := by
  rw [run.length_words, Image.total_eq run.pairwise_stop_le_base]
  exact Nat.le_trans (Image.stop_le_reach hs) (Nat.le_max_left _ _)

theorem image_getElem? (run : Run bus pad raw a) {s : Section} (hs : s ∈ a.sections) {k : Nat}
    {w : Word} (hk : s.words[k]? = some w) :
    ∃ n, a.image.words[s.base + k]? = some n ∧ w.resolve bus a.labels = .ok n := by
  obtain ⟨hlt, hget⟩ := List.getElem?_eq_some_iff.mp hk
  have hin : s.base + k < s.stop := Nat.add_lt_add_left hlt s.base
  have haddr : s.base + k < a.image.words.length :=
    Nat.lt_of_lt_of_le hin (run.stop_le_length_words hs)
  have hcell := run.cell_eq_ok hs (contains_iff.mpr ⟨Nat.le_add_right _ _, hin⟩) haddr
  rw [Nat.add_sub_cancel_left, cell, hk, Outcome.mapError_eq_ok] at hcell
  exact ⟨_, List.getElem?_eq_getElem haddr, hcell⟩

theorem mapM_resolve (run : Run bus pad raw a) {s : Section} (hs : s ∈ a.sections) :
    s.words.mapM (Word.resolve bus a.labels) = .ok ((a.image.words.drop s.base).take s.size) := by
  have hstop := run.stop_le_length_words hs
  rw [Outcome.mapM_eq_ok, List.forall₂_iff_get]
  refine ⟨?_, fun k hk hk' => ?_⟩
  · rw [List.length_take, List.length_drop, ← Section.size]
    rw [Section.stop] at hstop
    omega
  · obtain ⟨n, hn, hresolve⟩ := run.image_getElem? hs (List.getElem?_eq_getElem hk)
    obtain ⟨hlt, rfl⟩ := List.getElem?_eq_some_iff.mp hn
    simpa using hresolve

end Run

theorem assemble_image_content (h : (assemble bus pad raw).result = .ok a) :
    (∀ (addr : Nat) (haddr : addr < a.image.words.length),
      (∀ (i : Nat) (s : Section), a.sections[i]? = some s → s.contains addr = true →
        (∀ (j : Nat) (t : Section), a.sections[j]? = some t → t.contains addr = true → j = i) ∧
        ∃ w, s.words[addr - s.base]? = some w ∧
          w.resolve bus a.labels = .ok a.image.words[addr]) ∧
      ((∀ s ∈ a.sections, s.contains addr = false) → a.image.words[addr] = 0)) ∧
    (∀ s ∈ a.sections, s.stop ≤ a.image.words.length) ∧
    (a.sections.Pairwise fun s t => s.base ≤ t.base) ∧
    a.image.words.length =
      max (Image.reach a.sections) (if pad then Image.lastWindowEnd a.sections else 0) := by
  obtain ⟨run⟩ := assemble_eq_ok_iff.mp h
  refine ⟨fun addr haddr => ⟨?_, fun hnone => run.value_eq_zero hnone haddr⟩,
    fun s hs => run.stop_le_length_words hs, run.pairwise_base_le, ?_⟩
  · intro i s hi hs
    refine ⟨fun j t hj ht => run.eq_of_contains hi hs hj ht, ?_⟩
    have hcell := run.cell_eq_ok (List.mem_of_getElem? hi) hs haddr
    obtain ⟨hbase, hstop⟩ := contains_iff.mp hs
    have hlt : addr - s.base < s.words.length := by
      rw [Section.stop, Section.size] at hstop
      omega
    rw [Section.cell, List.getElem?_eq_getElem hlt, Outcome.mapError_eq_ok] at hcell
    exact ⟨_, List.getElem?_eq_getElem hlt, hcell⟩
  · rw [run.length_words, Image.total_eq run.pairwise_stop_le_base]

theorem assemble_image_content_sampleSource :
    ∃ a, (assemble sampleBus true sampleSource).result = .ok a ∧ a.sections = sampleSections ∧
      a.image.words.length = 1027 ∧
      (∀ (i : Nat) (s : Section), a.sections[i]? = some s → s.contains 4 = true → i = 0) ∧
      (Word.label "HANDLER".toList .high).resolve sampleBus a.labels = .ok 1 ∧
      a.image.words[4]? = some 1 ∧
      ∀ addr, 5 ≤ addr → addr < 256 → a.image.words[addr]? = some 0 := by
  obtain ⟨a, ha, hsections, hlabels, -⟩ := exists_assemble_sampleSource
  obtain ⟨hwords, -, -, hlength⟩ := assemble_image_content ha
  have hresolve : (Word.label "HANDLER".toList .high).resolve sampleBus a.labels = .ok 1 := by
    rw [hlabels]
    exact Outcome.toOption_eq_some.mp (by decide +kernel)
  replace hlength : a.image.words.length = 1027 := by
    rw [hlength, hsections]
    decide +kernel
  have hmain : a.sections[0]? = some sampleSections[0] := by rw [hsections]; rfl
  obtain ⟨hunique, w, hw, hvalue⟩ := (hwords 4 (by omega)).1 0 _ hmain (by decide +kernel)
  obtain rfl : Word.label "HANDLER".toList .high = w := Option.some.inj hw
  refine ⟨a, ha, hsections, hlength, hunique, hresolve, ?_, fun addr hle hlt => ?_⟩
  · rw [List.getElem?_eq_getElem (by omega), Except.ok.inj (hvalue.symm.trans hresolve)]
  · have hgap : ∀ addr < 256, 5 ≤ addr → ∀ s ∈ sampleSections, s.contains addr = false := by
      decide +kernel
    rw [← hsections] at hgap
    rw [List.getElem?_eq_getElem (by omega), (hwords addr (by omega)).2 (hgap addr hlt hle)]

end CrossAssembler
