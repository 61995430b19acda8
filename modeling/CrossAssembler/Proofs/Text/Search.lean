import CrossAssembler.Text.Search
import Mathlib.Data.List.Basic

namespace CrossAssembler.Text

def Clear (pat t : Text) : Prop :=
  ∀ front c back rest, t = front ++ c :: back → ¬pat <+: c :: back ++ rest

namespace Clear

variable {pat s t : Text}

theorem nil : Clear pat [] := by
  intro front c back rest h
  simp at h

theorem head {c : Char} (h : Clear pat (c :: t)) (rest : Text) :
    pat.isPrefixOf (c :: t ++ rest) = false := by
  have := h [] c t rest rfl
  rwa [← List.isPrefixOf_iff_prefix, Bool.not_eq_true] at this

theorem tail {c : Char} (h : Clear pat (c :: t)) : Clear pat t := by
  intro front d back rest heq
  exact h (c :: front) d back rest (by rw [heq]; rfl)

theorem append (hs : Clear pat s) (ht : Clear pat t) : Clear pat (s ++ t) := by
  induction s with
  | nil => exact ht
  | cons c s ih =>
      intro front d back rest heq
      cases front with
      | nil =>
          obtain ⟨rfl, rfl⟩ : c = d ∧ s ++ t = back := by simpa using heq
          have := hs [] c s (t ++ rest) rfl
          simpa using this
      | cons e front =>
          obtain ⟨rfl, htail⟩ : c = e ∧ s ++ t = front ++ d :: back := by simpa using heq
          exact ih hs.tail front d back rest htail

theorem of_not_mem {c : Char} {cs : Text} (h : c ∉ t) : Clear (c :: cs) t := by
  intro front d back rest heq hpre
  obtain ⟨rfl, -⟩ := List.cons_prefix_cons.mp hpre
  exact h (by simp [heq])

theorem of_incomparable {c : Char} {cs ds : Text} (hleft : ¬c :: cs <+: c :: ds)
    (hright : ¬c :: ds <+: c :: cs) (hmem : c ∉ ds) : Clear (c :: cs) (c :: ds) := by
  intro front d back rest heq hpre
  cases front with
  | nil =>
      obtain ⟨rfl, rfl⟩ : c = d ∧ ds = back := by simpa using heq
      rcases List.prefix_or_prefix_of_prefix hpre (List.prefix_append _ rest) with h | h
      · exact hleft h
      · exact hright h
  | cons e front =>
      obtain ⟨rfl, rfl⟩ : c = e ∧ ds = front ++ d :: back := by simpa using heq
      exact of_not_mem hmem front d back rest rfl hpre

theorem occurrences_append (h : Clear pat t) (rest : Text) :
    occurrences pat (t ++ rest) = (occurrences pat rest).map (· + t.length) := by
  induction t with
  | nil => simp
  | cons c t ih =>
      have hhead := h.head rest
      rw [List.cons_append] at hhead
      rw [List.cons_append, occurrences, hhead, ih h.tail]
      simp only [Bool.false_eq_true, if_false, List.map_map, List.length_cons]
      exact List.map_congr_left fun k _ => Nat.add_assoc k t.length 1

theorem find?_append (h : Clear pat t) (rest : Text) :
    find? pat (t ++ rest) = (find? pat rest).map (· + t.length) := by
  rw [find?_eq_head?_occurrences, find?_eq_head?_occurrences, h.occurrences_append, List.head?_map]

end Clear

theorem find?_eq_some_iff {pat t : Text} {k : Nat} (hpat : pat ≠ []) :
    find? pat t = some k ↔ pat <+: t.drop k ∧ ∀ j < k, ¬pat <+: t.drop j := by
  induction t generalizing k with
  | nil => simp [find?, hpat]
  | cons c t ih =>
      have hpre : pat.isPrefixOf (c :: t) = true ↔ pat <+: c :: t := List.isPrefixOf_iff_prefix
      rw [find?]
      by_cases h : pat <+: c :: t
      · rw [if_pos (hpre.mpr h)]
        constructor
        · rintro ⟨⟩
          exact ⟨h, by simp⟩
        · rintro ⟨-, hfirst⟩
          rcases Nat.eq_zero_or_pos k with rfl | hk
          · rfl
          · exact absurd h (hfirst 0 hk)
      · rw [if_neg (mt hpre.mp h)]
        cases k with
        | zero => simp [h]
        | succ k =>
            simp only [Option.map_eq_some_iff, Nat.add_right_cancel_iff, exists_eq_right, ih,
              List.drop_succ_cons, Nat.forall_lt_succ_left, List.drop_zero, h, not_false_eq_true,
              true_and]

theorem find?_eq_none_iff {pat t : Text} (hpat : pat ≠ []) :
    find? pat t = none ↔ ∀ j, ¬pat <+: t.drop j := by
  constructor
  · intro h j hpre
    have hmem : j ∈ occurrences pat t := by
      refine mem_occurrences.mpr ⟨?_, hpre⟩
      by_contra hlt
      rw [List.drop_eq_nil_of_le (by omega), List.prefix_nil] at hpre
      exact hpat hpre
    rw [find?_eq_head?_occurrences, List.head?_eq_none_iff] at h
    simp [h] at hmem
  · intro h
    cases hfind : find? pat t with
    | none => rfl
    | some k => exact absurd ((find?_eq_some_iff hpat).mp hfind).1 (h k)

theorem prefix_drop_append_cons {u s t : Text} {c : Char} {pos : Nat} (hc : c ∉ u)
    (h : u <+: (s ++ c :: t).drop pos) :
    pos + u.length ≤ s.length ∧ u <+: s.drop pos ∨
      s.length < pos ∧ u <+: t.drop (pos - (s.length + 1)) := by
  rcases Nat.lt_or_ge s.length pos with hlt | hle
  · right
    rw [List.drop_append, List.drop_eq_nil_of_le (Nat.le_of_lt hlt), List.nil_append,
      show pos - s.length = (pos - (s.length + 1)) + 1 by omega, List.drop_succ_cons] at h
    exact ⟨hlt, h⟩
  · left
    rw [List.drop_append_of_le_length hle] at h
    have hroom : u.length ≤ (s.drop pos).length := by
      by_contra hlong
      have hbreak : s.drop pos ++ [c] <+: u := by
        refine List.prefix_of_prefix_length_le ⟨t, by simp⟩ h ?_
        rw [List.length_append, List.length_singleton]
        omega
      exact hc (hbreak.subset (by simp))
    refine ⟨?_, List.prefix_of_prefix_length_le h (List.prefix_append _ _) hroom⟩
    rw [List.length_drop] at hroom
    omega

theorem prefix_drop_exchange {u s t : Text} {c : Char} {pos : Nat} (hc : c ∉ u)
    (h : u <+: (s ++ c :: t).drop pos) (d : Char) : u <+: (s ++ d :: t).drop pos := by
  rcases prefix_drop_append_cons hc h with ⟨hroom, hpre⟩ | ⟨hlt, hpre⟩
  · rw [List.drop_append_of_le_length (by omega)]
    exact hpre.trans (List.prefix_append _ _)
  · rwa [List.drop_append, List.drop_eq_nil_of_le (Nat.le_of_lt hlt), List.nil_append,
      show pos - s.length = (pos - (s.length + 1)) + 1 by omega, List.drop_succ_cons]

theorem pairwise_occurrences (pat t : Text) : (occurrences pat t).Pairwise (· < ·) := by
  induction t with
  | nil => cases pat <;> simp [occurrences]
  | cons c t ih =>
      have hshift : ((occurrences pat t).map (· + 1)).Pairwise (· < ·) := by
        rw [List.pairwise_map]
        exact ih.imp (by omega)
      rw [occurrences]
      split
      · refine List.pairwise_cons.mpr ⟨fun j hj => ?_, hshift⟩
        obtain ⟨i, -, rfl⟩ := List.mem_map.mp hj
        omega
      · exact hshift

theorem find?_self_append {pat : Text} (hpat : pat ≠ []) (rest : Text) :
    find? pat (pat ++ rest) = some 0 := by
  obtain ⟨c, cs, rfl⟩ := List.exists_cons_of_ne_nil hpat
  have : (c :: cs).isPrefixOf (c :: (cs ++ rest)) = true := by
    rw [List.isPrefixOf_iff_prefix]
    exact List.prefix_append (c :: cs) rest
  simp [find?, this]

theorem occurrences_self_append {c : Char} {cs t : Text} (h : c ∉ cs) (ht : Clear (c :: cs) t)
    (rest : Text) :
    occurrences (c :: cs) (c :: cs ++ t ++ rest) =
      0 :: (occurrences (c :: cs) rest).map (· + (c :: cs ++ t).length) := by
  have hpre : (c :: cs).isPrefixOf (c :: (cs ++ t ++ rest)) = true := by
    rw [List.isPrefixOf_iff_prefix, List.append_assoc]
    exact List.prefix_append (c :: cs) (t ++ rest)
  have hclear : Clear (c :: cs) (cs ++ t) := (Clear.of_not_mem h).append ht
  rw [List.cons_append, List.cons_append, occurrences, hpre, hclear.occurrences_append]
  simp [Nat.add_assoc]

end CrossAssembler.Text
