import CrossAssembler.Proofs.Source.Normalization
import CrossAssembler.Proofs.Source.Padding

namespace CrossAssembler

open Text

namespace Text

def codeLines (t : Text) : List Text :=
  ((t.splitOn '\n').map trim).filter (!·.isEmpty)

def codeLine (t : Text) : List Text :=
  if (trim t).isEmpty then [] else [trim t]

theorem filter_trim_cons (t : Text) (ts : List Text) :
    ((t :: ts).map trim).filter (!·.isEmpty) =
      codeLine t ++ (ts.map trim).filter (!·.isEmpty) := by
  rw [List.map_cons, List.filter_cons, codeLine]
  cases (trim t).isEmpty <;> rfl

theorem codeLines_of_not_mem {t : Text} (h : '\n' ∉ t) : codeLines t = codeLine t := by
  rw [codeLines, List.splitOn_eq_singleton h, filter_trim_cons]
  simp

theorem codeLines_append_newline {t : Text} (h : '\n' ∉ t) (rest : Text) :
    codeLines (t ++ '\n' :: rest) = codeLine t ++ codeLines rest := by
  rw [codeLines, List.splitOn_append_cons_self_of_not_mem h, filter_trim_cons]
  rfl

theorem codeLines_nil : codeLines [] = [] := rfl

end Text

namespace Source

variable {raw : Text} {ls : List SourceLine} {start stop : Nat}

theorem map_text_piecesIn (h : ∀ l ∈ ls, '\n' ∉ l.text) :
    (piecesIn ls start stop).map (·.text) = codeLines (((textOf ls).take stop).drop start) := by
  induction ls generalizing start stop with
  | nil => simp [piecesIn, codeLines, trim, trimStart, trimEnd]
  | cons l ls ih =>
      have hline : '\n' ∉ (l.text.take stop).drop start := fun hmem =>
        h l List.mem_cons_self (List.mem_of_mem_take (List.mem_of_mem_drop hmem))
      have hpieces : (piecesIn (l :: ls) start stop).map (·.text) =
          codeLine ((l.text.take stop).drop start) ++
            codeLines (((textOf ls).take (stop - (l.text.length + 1))).drop
              (start - (l.text.length + 1))) := by
        rw [← ih fun l' hl' => h l' (List.mem_cons_of_mem l hl'), piecesIn, codeLine]
        split <;> rfl
      rw [hpieces, textOf_cons]
      rcases Nat.lt_or_ge l.text.length start with hstart | hstart
      · -- the line ends before the span
        rw [drop_take_of_lt hstart, List.drop_eq_nil_of_le]
        · rfl
        · rw [List.length_take]
          omega
      rcases Nat.lt_or_ge l.text.length stop with hstop | hstop
      · obtain ⟨k, rfl⟩ := Nat.exists_eq_add_of_lt hstop
        rw [List.take_of_length_le (by omega)] at hline ⊢
        rw [show l.text.length + k + 1 - (l.text.length + 1) = k by omega,
          show start - (l.text.length + 1) = 0 by omega, List.drop_zero,
          ← codeLines_append_newline hline, Nat.add_assoc, List.take_length_add_append,
          List.take_succ_cons, List.drop_append_of_le_length hstart]
      · -- the span ends within the line
        rw [show stop - (l.text.length + 1) = 0 by omega, List.take_zero, List.drop_nil,
          codeLines_nil, List.append_nil, List.take_append_of_le_length hstop,
          codeLines_of_not_mem hline]

theorem pairwise_number_normalize (raw : Text) :
    (normalize raw).lines.Pairwise (·.number < ·.number) := by
  have hindex : (raw.lines.zipIdx 1).Pairwise (·.2 < ·.2) := by
    rw [← List.pairwise_map (f := Prod.snd), List.zipIdx_map_snd]
    exact List.pairwise_lt_range' 1
  refine hindex.filterMap _ fun x y hlt l hl l' hl' => ?_
  obtain ⟨code, -, rfl⟩ := Option.map_eq_some_iff.mp hl
  obtain ⟨code', -, rfl⟩ := Option.map_eq_some_iff.mp hl'
  exact hlt

theorem number_sublist_piecesIn :
    ((piecesIn ls start stop).map (·.number)).Sublist (ls.map (·.number)) := by
  induction ls generalizing start stop with
  | nil => exact .refl []
  | cons l ls ih =>
      rw [piecesIn]
      split
      · exact .cons _ ih
      · exact .cons_cons _ ih

theorem pairwise_number_linesIn (raw : Text) (span : Span) :
    ((normalize raw).linesIn span).Pairwise (·.number < ·.number) := by
  have hsource := List.pairwise_map.mpr (pairwise_number_normalize raw)
  exact List.pairwise_map.mp (hsource.sublist number_sublist_piecesIn)

theorem newline_not_mem_normalize {l : SourceLine} (h : l ∈ (normalize raw).lines) :
    '\n' ∉ l.text := by
  obtain ⟨-, line, hget, hcode⟩ := exists_of_mem_significant h
  intro hmem
  have hmem := mem_of_mem_upper (by decide) ((infix_of_significant? hcode).subset hmem)
  exact newline_not_mem_of_mem_lines (List.mem_of_getElem? hget)
    ((uncomment_isPrefix line).subset hmem)

theorem map_text_linesIn (raw : Text) (span : Span) :
    ((normalize raw).linesIn span).map (·.text) = codeLines ((normalize raw).slice span) :=
  map_text_piecesIn fun _ hl => newline_not_mem_normalize hl

end Source

end CrossAssembler
