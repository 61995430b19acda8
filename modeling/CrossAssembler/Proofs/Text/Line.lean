import CrossAssembler.Text.Line
import Mathlib.Data.List.Forall2

namespace CrossAssembler.Text

def unlines : List Text → Text
  | [] => []
  | [l] => l
  | l :: next :: ls => l ++ '\n' :: unlines (next :: ls)

def Chomped (l l' : Text) : Prop :=
  l' = l ∨ l = l' ++ ['\r']

theorem Chomped.append {s t l' : Text} (h : Chomped (s ++ t) l') (hs : s.getLast? ≠ some '\r') :
    ∃ t', t' <+: t ∧ l' = s ++ t' := by
  rcases h with rfl | h
  · exact ⟨t, List.prefix_refl t, rfl⟩
  · rcases List.eq_nil_or_concat' t with rfl | ⟨t', c, rfl⟩
    · rw [List.append_nil] at h
      simp [h] at hs
    · refine ⟨t', List.prefix_append _ _, ?_⟩
      rw [← List.append_assoc] at h
      exact (List.append_inj_left' h rfl).symm

theorem lines_cons {c : Char} {t : Text} (hline : c ≠ '\n')
    (hreturn : c = '\r' → t.head? ≠ some '\n') {l : Text} {ls : List Text}
    (ht : lines t = l :: ls) : lines (c :: t) = (c :: l) :: ls := by
  rw [lines, ht]
  · exact hline
  · rintro t' rfl rfl
    simp at hreturn

theorem lines_of_not_mem {l : Text} (h : '\n' ∉ l) : lines l = if l = [] then [] else [l] := by
  induction l with
  | nil => rfl
  | cons c l ih =>
      have hc : c ≠ '\n' := by
        rintro rfl
        simp at h
      have hl : '\n' ∉ l := fun hmem => h (List.mem_cons_of_mem c hmem)
      cases l with
      | nil =>
          rw [lines]
          · simp [lines]
          · exact hc
          · simp
      | cons d l =>
          have hd : c = '\r' → (d :: l).head? ≠ some '\n' := by
            rintro - hd
            simp only [List.head?_cons, Option.some.injEq] at hd
            simp [hd] at hl
          rw [lines_cons hc hd (ih hl)]
          simp

theorem lines_append_newline {l : Text} (h : '\n' ∉ l) (rest : Text) :
    ∃ l', Chomped l l' ∧ lines (l ++ '\n' :: rest) = l' :: lines rest := by
  induction l with
  | nil => exact ⟨[], .inl rfl, rfl⟩
  | cons c l ih =>
      have hc : c ≠ '\n' := by
        rintro rfl
        simp at h
      have hl : '\n' ∉ l := fun hmem => h (List.mem_cons_of_mem c hmem)
      by_cases hreturn : c = '\r' ∧ l = []
      · obtain ⟨rfl, rfl⟩ := hreturn
        exact ⟨[], .inr rfl, rfl⟩
      · obtain ⟨l', hchomped, hlines⟩ := ih hl
        have hhead : c = '\r' → (l ++ '\n' :: rest).head? ≠ some '\n' := by
          rintro rfl hhead
          cases l with
          | nil => simp at hreturn
          | cons d l =>
              simp only [List.cons_append, List.head?_cons, Option.some.injEq] at hhead
              simp [hhead] at hl
        refine ⟨c :: l', ?_, lines_cons hc hhead hlines⟩
        rcases hchomped with rfl | rfl
        · exact .inl rfl
        · exact .inr rfl

theorem lines_unlines {ls : List Text} (h : ∀ l ∈ ls, '\n' ∉ l) :
    ∃ ls', List.Forall₂ Chomped ls ls' ∧
      (lines (unlines ls) = ls' ∨ lines (unlines ls) ++ [[]] = ls') := by
  fun_induction unlines ls with
  | case1 => exact ⟨[], .nil, .inl rfl⟩
  | case2 l =>
      refine ⟨[l], .cons (.inl rfl) .nil, ?_⟩
      rw [lines_of_not_mem (h l List.mem_cons_self)]
      by_cases hl : l = [] <;> simp [hl]
  | case3 l next ls ih =>
      obtain ⟨ls', hforall, hlines⟩ := ih fun l' hl' => h l' (List.mem_cons_of_mem l hl')
      obtain ⟨l', hchomped, hl'⟩ :=
        lines_append_newline (h l List.mem_cons_self) (unlines (next :: ls))
      refine ⟨l' :: ls', .cons hchomped hforall, ?_⟩
      rw [hl']
      rcases hlines with rfl | rfl
      · exact .inl rfl
      · exact .inr rfl

theorem lines_flatMap_newline {ls : List Text} (h : ∀ l ∈ ls, '\n' ∉ l ∧ '\r' ∉ l) :
    lines (ls.flatMap (· ++ ['\n'])) = ls := by
  induction ls with
  | nil => rfl
  | cons l ls ih =>
      obtain ⟨hfeed, hreturn⟩ := h l List.mem_cons_self
      obtain ⟨l', hchomped, hlines⟩ := lines_append_newline hfeed (ls.flatMap (· ++ ['\n']))
      obtain rfl : l' = l := by
        rcases hchomped with hl | rfl
        · exact hl
        · simp at hreturn
      rw [List.flatMap_cons, List.append_assoc, List.singleton_append, hlines,
        ih fun l hl => h l (List.mem_cons_of_mem _ hl)]

end CrossAssembler.Text
