import CrossAssembler.Layout
import CrossAssembler.Proofs.Image.Linking
import Mathlib.Data.List.Pairwise
import Mathlib.Data.List.Perm.Basic

namespace CrossAssembler

namespace Section

def Clear (s t : Section) : Prop :=
  s.contains t.base = false ∧ t.contains s.base = false

theorem Clear.symm {s t : Section} (h : s.Clear t) : t.Clear s :=
  And.symm h

theorem contains_eq_false_iff {s : Section} {addr : Nat} :
    s.contains addr = false ↔ addr < s.base ∨ s.stop ≤ addr := by
  rw [← Bool.not_eq_true, contains_iff]
  omega

theorem Clear.stop_le {s t : Section} (h : s.Clear t) (hbase : s.base ≤ t.base) :
    s.stop ≤ t.base := by
  have := contains_eq_false_iff.mp h.1
  omega

end Section

namespace Layout

theorem intruded?_eq_none_iff {s : Section} :
    intruded? s = none ↔ (s.kind.isFixed = false → interruptEnd ≤ s.base) := by
  have hwindows : mainEnd ≤ interruptEnd := by decide
  unfold intruded?
  split
  · simp_all
  · split
    · simp_all
      omega
    · split <;> simp_all

theorem collision?_eq_none_iff {sections : List Section} :
    collision? sections = none ↔
      sections.Pairwise fun s t => (s.kind.isFixed ∧ t.kind.isFixed) ∨ s.Clear t := by
  simp only [collision?, List.findSome?_eq_none_iff, Prod.forall, List.mem_zipIdx_iff_getElem?,
    ite_eq_right_iff, reduceCtorEq, imp_false, List.pairwise_iff_getElem]
  constructor
  · intro h i j hi hj hij
    have hij' := h _ _ (List.getElem?_eq_getElem hi) _ _ (List.getElem?_eq_getElem hj)
    have hji' := h _ _ (List.getElem?_eq_getElem hj) _ _ (List.getElem?_eq_getElem hi)
    simp only [Section.Clear]
    grind
  · intro h s i hs t j ht hcollide
    obtain ⟨hi, rfl⟩ := List.getElem?_eq_some_iff.mp hs
    obtain ⟨hj, rfl⟩ := List.getElem?_eq_some_iff.mp ht
    simp only [Section.Clear] at h
    rcases Nat.lt_or_gt_of_ne hcollide.1 with hlt | hlt
    · grind
    · grind

theorem validate_eq_ok_iff {sections : List Section} :
    validate sections = .ok () ↔
      (∀ s ∈ sections, s.kind.isFixed = false → interruptEnd ≤ s.base) ∧
        sections.Pairwise fun s t => (s.kind.isFixed ∧ t.kind.isFixed) ∨ s.Clear t := by
  rw [← collision?_eq_none_iff]
  have hintruded : (sections.findSome? fun s => (intruded? s).map (s.kind, ·)) = none ↔
      ∀ s ∈ sections, s.kind.isFixed = false → interruptEnd ≤ s.base := by
    simp only [List.findSome?_eq_none_iff, Option.map_eq_none_iff, intruded?_eq_none_iff]
  rw [← hintruded]
  unfold validate
  split
  · simp_all
  · split <;> simp_all

theorem validate_eq_ok_of_perm {sections sections' : List Section} (hperm : sections.Perm sections')
    (h : validate sections = .ok ()) : validate sections' = .ok () := by
  rw [validate_eq_ok_iff] at h ⊢
  obtain ⟨hbases, hclear⟩ := h
  refine ⟨fun s hs => hbases s (hperm.mem_iff.mpr hs), (hperm.pairwise_iff ?_).mp hclear⟩
  rintro s t (⟨hs, ht⟩ | hst)
  · exact .inl ⟨ht, hs⟩
  · exact .inr hst.symm

end Layout

namespace Image

theorem pairwise_stop_le_base {sections : List Section} (h : sections.Pairwise Section.Clear) :
    (byBase sections).Pairwise fun s t => s.stop ≤ t.base := by
  have hperm : (byBase sections).Perm sections := List.mergeSort_perm _ _
  have hclear : (byBase sections).Pairwise Section.Clear :=
    (hperm.pairwise_iff Section.Clear.symm).mpr h
  exact (hclear.and (pairwise_byBase sections)).imp fun h => h.1.stop_le h.2

theorem owner?_eq_some_of_contains {sections : List Section} {s : Section} {addr : Nat}
    (hapart : sections.Pairwise fun s t => s.stop ≤ t.base) (hs : s ∈ sections)
    (haddr : s.contains addr) : owner? sections addr = some s := by
  obtain ⟨before, after, rfl⟩ := List.append_of_mem hs
  obtain ⟨hbase, hstop⟩ := Section.contains_iff.mp haddr
  have hafter : after.filter (·.base ≤ addr) = [] := by
    rw [List.filter_eq_nil_iff]
    intro t ht
    have := (List.pairwise_cons.mp (List.pairwise_append.mp hapart).2.1).1 t ht
    simp only [decide_eq_true_eq]
    omega
  simp [owner?, List.filter_append, hbase, hafter]

variable {bus : Bus} {labels : Labels}

theorem valueAt_of_contains {sections : List Section} {s : Section} {addr : Nat}
    (hapart : sections.Pairwise fun s t => s.stop ≤ t.base) (hs : s ∈ sections)
    (haddr : s.contains addr) :
    valueAt bus labels sections addr = s.cell bus labels (addr - s.base) := by
  simp only [valueAt, owner?_eq_some_of_contains hapart hs haddr]

theorem valueAt_of_uncovered {sections : List Section} {addr : Nat}
    (h : ∀ s ∈ sections, s.contains addr = false) : valueAt bus labels sections addr = .ok 0 := by
  unfold valueAt
  cases howner : owner? sections addr with
  | none => rfl
  | some s =>
      obtain ⟨hs, hbase⟩ := List.mem_filter.mp (List.mem_of_getLast? howner)
      have hbase : s.base ≤ addr := by simpa using hbase
      have hpast := Section.contains_eq_false_iff.mp (h s hs)
      rw [Section.stop] at hpast
      exact Section.cell_of_size_le (by omega)

end Image

end CrossAssembler
