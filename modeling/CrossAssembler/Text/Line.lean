import CrossAssembler.Text.Blank

namespace CrossAssembler.Text

def lines : Text → List Text
  | [] => []
  | '\n' :: t => [] :: lines t
  | '\r' :: '\n' :: t => [] :: lines t
  | c :: t =>
      match lines t with
      | [] => [[c]]
      | l :: ls => (c :: l) :: ls

theorem newline_not_mem_of_mem_lines {t l : Text} (h : l ∈ lines t) : '\n' ∉ l := by
  fun_induction lines t generalizing l with
  | case1 => simp at h
  | case2 t ih =>
      rcases List.mem_cons.1 h with rfl | h
      · simp
      · exact ih h
  | case3 t ih =>
      rcases List.mem_cons.1 h with rfl | h
      · simp
      · exact ih h
  | case4 c t hn hr ht ih =>
      obtain rfl := List.mem_singleton.1 h
      simpa using fun he => hn he.symm
  | case5 c t hn hr l' ls ht ih =>
      rcases List.mem_cons.1 h with rfl | h
      · have := ih (ht ▸ List.mem_cons_self)
        simp only [List.mem_cons, not_or]
        exact ⟨fun he => hn he.symm, this⟩
      · exact ih (ht ▸ List.mem_cons_of_mem _ h)

end CrossAssembler.Text
