import CrossAssembler.Proofs.Layout.Separation
import CrossAssembler.Proofs.Sequence
import Mathlib.Order.Interval.Set.Basic

namespace CrossAssembler

namespace Section

variable {s t : Section}

def span (s : Section) : Set Nat :=
  Set.Ico s.base (s.base + s.words.length)

theorem mem_span_iff {addr : Nat} : addr ∈ s.span ↔ s.contains addr = true := by
  rw [contains_iff]
  rfl

structure Apart (s t : Section) : Prop where
  disjoint : ∀ addr ∈ s.span, addr ∉ t.span
  empty_left : s.words = [] → s.base ∉ t.span
  empty_right : t.words = [] → t.base ∉ s.span

theorem base_mem_span (h : s.words ≠ []) : s.base ∈ s.span :=
  ⟨Nat.le_refl _, Nat.lt_add_of_pos_right (List.length_pos_iff.mpr h)⟩

theorem Apart.symm (h : s.Apart t) : t.Apart s :=
  ⟨fun addr ht hs => h.disjoint addr hs ht, h.empty_right, h.empty_left⟩

theorem Apart.base_not_mem (h : s.Apart t) : t.base ∉ s.span := by
  intro hmem
  by_cases hempty : t.words = []
  · exact h.empty_right hempty hmem
  · exact h.disjoint t.base hmem (base_mem_span hempty)

theorem exists_base_mem_of_mem {addr : Nat} (hs : addr ∈ s.span) (ht : addr ∈ t.span) :
    t.base ∈ s.span ∨ s.base ∈ t.span := by
  obtain ⟨hs, hs'⟩ := hs
  obtain ⟨ht, ht'⟩ := ht
  rcases Nat.le_total s.base t.base with hle | hle
  · exact .inl ⟨hle, Nat.lt_of_le_of_lt ht hs'⟩
  · exact .inr ⟨hle, Nat.lt_of_le_of_lt hs ht'⟩

theorem apart_iff_clear : s.Apart t ↔ s.Clear t := by
  simp only [Clear, ← Bool.not_eq_true, ← mem_span_iff]
  constructor
  · intro h
    exact ⟨h.base_not_mem, h.symm.base_not_mem⟩
  · rintro ⟨hts, hst⟩
    refine ⟨fun addr hs ht => ?_, fun _ => hst, fun _ => hts⟩
    exact (exists_base_mem_of_mem hs ht).elim hts hst

inductive Overlaps (s t : Section) : Prop
  | inside (start : s.base ∈ t.span) (stop : s.stop ≤ t.stop)
  | around (start : t.base ∈ s.span) (stop : t.stop ≤ s.stop)
  | overStart (start : s.base < t.base) (meets : t.base < s.stop) (stop : s.stop < t.stop)
  | overStop (start : t.base < s.base) (meets : s.base < t.stop) (stop : t.stop < s.stop)

theorem Overlaps.not_apart (h : s.Overlaps t) : ¬s.Apart t := by
  intro hapart
  cases h with
  | inside start => exact hapart.symm.base_not_mem start
  | around start => exact hapart.base_not_mem start
  | overStart start meets => exact hapart.base_not_mem ⟨Nat.le_of_lt start, meets⟩
  | overStop start meets => exact hapart.symm.base_not_mem ⟨Nat.le_of_lt start, meets⟩

end Section

theorem SectionKind.isFixed_eq_false_iff {kind : SectionKind} :
    kind.isFixed = false ↔ ∃ location, kind = .org location := by
  cases kind <;> simp [isFixed, window?]

namespace Layout

theorem exists_overlap_of_validate_ne_ok {sections : List Section}
    (h : validate sections ≠ .ok ()) : ∃ a b, validate sections = .error (.overlap a b) := by
  unfold validate at h ⊢
  split
  · exact ⟨_, _, rfl⟩
  · split
    · exact ⟨_, _, rfl⟩
    · simp_all

theorem validate_eq_ok_iff_of_perm {sections sections' : List Section}
    (hperm : sections'.Perm sections) : validate sections' = .ok () ↔ validate sections = .ok () :=
  ⟨validate_eq_ok_of_perm hperm, validate_eq_ok_of_perm hperm.symm⟩

theorem validate_eq_ok_iff_apart {sections : List Section} :
    validate sections = .ok () ↔
      (∀ s ∈ sections, ∀ location, s.kind = .org location → interruptEnd ≤ s.base) ∧
        ∀ (i j : Nat) (s t : Section), i ≠ j → sections[i]? = some s → sections[j]? = some t →
          ¬(s.kind.isFixed ∧ t.kind.isFixed) → s.Apart t := by
  have hsymm : ∀ s t : Section, (s.kind.isFixed ∧ t.kind.isFixed) ∨ s.Clear t →
      (t.kind.isFixed ∧ s.kind.isFixed) ∨ t.Clear s :=
    fun _ _ h => h.imp And.symm Section.Clear.symm
  rw [validate_eq_ok_iff, Sequence.pairwise_iff_of_symmetric hsymm]
  simp only [SectionKind.isFixed_eq_false_iff, Section.apart_iff_clear, or_iff_not_imp_left,
    forall_exists_index]

theorem validate_disjointness (sections : List Section) :
    (validate sections = .ok () ↔
      (∀ s ∈ sections, ∀ location, s.kind = .org location → 1024 ≤ s.base) ∧
        ∀ (i j : Nat) (s t : Section), i ≠ j → sections[i]? = some s → sections[j]? = some t →
          ¬(s.kind.isFixed ∧ t.kind.isFixed) → s.Apart t) ∧
    (∀ (i j : Nat) (s t : Section), i ≠ j → sections[i]? = some s → sections[j]? = some t →
      ¬(s.kind.isFixed ∧ t.kind.isFixed) → s.Overlaps t →
      ∀ sections', sections'.Perm sections →
        ∃ a b, validate sections' = .error (.overlap a b)) ∧
    ∀ sections', sections'.Perm sections →
      (validate sections' = .ok () ↔ validate sections = .ok ()) := by
  refine ⟨validate_eq_ok_iff_apart, ?_, fun sections' => validate_eq_ok_iff_of_perm⟩
  intro i j s t hij hs ht hfixed hoverlaps sections' hperm
  apply exists_overlap_of_validate_ne_ok
  rw [Ne, validate_eq_ok_iff_of_perm hperm, validate_eq_ok_iff_apart]
  rintro ⟨-, hapart⟩
  exact hoverlaps.not_apart (hapart i j s t hij hs ht hfixed)

def nestedSections : List Section :=
  [⟨.main, 0, [], []⟩, ⟨.org "$704".toList, 0x704, List.replicate 2 (.value 60), []⟩,
    ⟨.org "$700".toList, 0x700, List.replicate 9 (.value 60), []⟩]

theorem validate_disjointness_nestedSections :
    (∃ s t, nestedSections[1]? = some s ∧ nestedSections[2]? = some t ∧ s.Overlaps t) ∧
      ∃ a b, validate nestedSections.reverse = .error (.overlap a b) := by
  have hinside : (⟨.org "$704".toList, 0x704, List.replicate 2 (.value 60), []⟩ : Section).Overlaps
      ⟨.org "$700".toList, 0x700, List.replicate 9 (.value 60), []⟩ :=
    .inside (Section.mem_span_iff.mpr (by decide)) (by decide)
  exact ⟨⟨_, _, rfl, rfl, hinside⟩, (validate_disjointness nestedSections).2.1 1 2 _ _ (by decide)
    rfl rfl (by decide) hinside _ (List.reverse_perm _)⟩

end Layout

end CrossAssembler
