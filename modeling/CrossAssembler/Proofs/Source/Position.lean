import CrossAssembler.Source.Blocks
import CrossAssembler.Proofs.Source.Span
import CrossAssembler.Proofs.Text.Search

namespace CrossAssembler.Source

open Text

variable {src : Source} {u : Text}

def Reads (src : Source) (u : Text) (stop pos : Nat) : Prop :=
  u <+: src.text.drop pos ∧ pos + u.length ≤ stop

theorem prefix_drop_slice {start stop k : Nat} (hu : u ≠ []) :
    u <+: (src.slice ⟨start, stop⟩).drop k ↔ src.Reads u stop (start + k) := by
  have hpos := List.length_pos_iff.mpr hu
  rw [slice, List.drop_drop, List.drop_take, List.prefix_take_iff, Reads]
  refine and_congr_right fun _ => ?_
  dsimp only
  omega

theorem mem_occurrences_slice {start stop k : Nat} (hu : u ≠ []) :
    k ∈ occurrences u (src.slice ⟨start, stop⟩) ↔ src.Reads u stop (start + k) := by
  rw [mem_occurrences, prefix_drop_slice hu]
  refine ⟨fun h => h.2, fun h => ⟨?_, h⟩⟩
  have hpos := List.length_pos_iff.mpr hu
  have hlength := h.1.length_le
  have hstop := h.2
  rw [List.length_drop] at hlength
  rw [slice, List.length_drop, List.length_take]
  dsimp only
  omega

theorem find?_slice_eq_some_iff {start stop k : Nat} (hu : u ≠ []) :
    find? u (src.slice ⟨start, stop⟩) = some k ↔
      src.Reads u stop (start + k) ∧
        ∀ pos, start ≤ pos → pos < start + k → ¬src.Reads u stop pos := by
  simp only [find?_eq_some_iff hu, prefix_drop_slice hu]
  refine and_congr_right fun _ => ⟨fun h pos hle hlt => ?_, fun h j hj => h _ (by omega) (by omega)⟩
  have := h (pos - start) (by omega)
  rwa [Nat.add_sub_cancel' hle] at this

theorem find?_slice_eq_none_iff {start stop : Nat} (hu : u ≠ []) :
    find? u (src.slice ⟨start, stop⟩) = none ↔ ∀ pos, start ≤ pos → ¬src.Reads u stop pos := by
  simp only [find?_eq_none_iff hu, prefix_drop_slice hu]
  refine ⟨fun h pos hle => ?_, fun h j => h _ (by omega)⟩
  have := h (pos - start)
  rwa [Nat.add_sub_cancel' hle] at this

theorem prefix_drop_textOf_cons {l : SourceLine} {ls : List SourceLine} {pos : Nat}
    (hline : '\n' ∉ u) (h : u <+: (textOf (l :: ls)).drop pos) :
    pos + u.length ≤ l.text.length ∧ u <+: l.text.drop pos ∨
      l.text.length < pos ∧ u <+: (textOf ls).drop (pos - (l.text.length + 1)) := by
  rw [textOf_cons] at h
  exact prefix_drop_append_cons hline h

theorem exists_line_of_prefix {ls : List SourceLine} {pos : Nat} (hu : u ≠ []) (hline : '\n' ∉ u)
    (h : u <+: (textOf ls).drop pos) :
    ∃ l ∈ ls, l.number = numberAt ls pos ∧ u <:+: l.text := by
  induction ls generalizing pos with
  | nil => simp [hu] at h
  | cons l ls ih =>
      rcases prefix_drop_textOf_cons hline h with ⟨hroom, hpre⟩ | ⟨hlt, hpre⟩
      · have hle : pos ≤ l.text.length := by omega
        exact ⟨l, List.mem_cons_self, (numberAt_cons_of_le ls hle).symm,
          hpre.isInfix.trans (List.drop_suffix _ _).isInfix⟩
      · obtain ⟨l', hl', hnumber, hinfix⟩ := ih hpre
        have hne : ls ≠ [] := List.ne_nil_of_mem hl'
        refine ⟨l', List.mem_cons_of_mem l hl', ?_, hinfix⟩
        rw [numberAt_cons_of_lt hne hlt, hnumber]

theorem exists_piece_of_prefix {ls : List SourceLine} {pos start stop : Nat} (hu : Tight u)
    (hline : '\n' ∉ u) (h : u <+: (textOf ls).drop pos) (hstart : start ≤ pos)
    (hstop : pos + u.length ≤ stop) : ∃ l ∈ piecesIn ls start stop, u <:+: l.text := by
  induction ls generalizing pos start stop with
  | nil => simp [hu.ne_nil] at h
  | cons l ls ih =>
      rw [piecesIn]
      rcases prefix_drop_textOf_cons hline h with ⟨hroom, hpre⟩ | ⟨hlt, hpre⟩
      · have hpiece : u <:+: (l.text.take stop).drop start := by
          have hdrop : ((l.text.take stop).drop start).drop (pos - start) =
              (l.text.drop pos).take (stop - pos) := by
            rw [List.drop_drop, List.drop_take, Nat.add_sub_cancel' hstart]
          have : u <+: ((l.text.take stop).drop start).drop (pos - start) := by
            rw [hdrop, List.prefix_take_iff]
            exact ⟨hpre, by omega⟩
          exact this.isInfix.trans (List.drop_suffix _ _).isInfix
        have htrim := hu.infix_trim hpiece
        have hne : (trim ((l.text.take stop).drop start)).isEmpty = false := by
          rw [List.isEmpty_eq_false_iff]
          rintro hnil
          rw [hnil, List.infix_nil] at htrim
          exact hu.ne_nil htrim
        simp only [hne]
        exact ⟨_, List.mem_cons_self, htrim⟩
      · have hstart' : start - (l.text.length + 1) ≤ pos - (l.text.length + 1) := by omega
        have hstop' : pos - (l.text.length + 1) + u.length ≤ stop - (l.text.length + 1) := by omega
        obtain ⟨l', hl', hinfix⟩ := ih hpre hstart' hstop'
        refine ⟨l', ?_, hinfix⟩
        split
        · exact hl'
        · exact List.mem_cons_of_mem _ hl'

theorem exists_line_of_mem_piecesIn {ls : List SourceLine} {piece : SourceLine} {start stop : Nat}
    (h : piece ∈ piecesIn ls start stop) :
    ∃ l ∈ ls, l.number = piece.number ∧ piece.text <:+: l.text := by
  induction ls generalizing start stop with
  | nil => simp [piecesIn] at h
  | cons l ls ih =>
      rw [piecesIn] at h
      have hrest : piece ∈ piecesIn ls (start - (l.text.length + 1)) (stop - (l.text.length + 1)) →
          ∃ l' ∈ l :: ls, l'.number = piece.number ∧ piece.text <:+: l'.text := by
        intro h
        obtain ⟨l', hl', hpiece⟩ := ih h
        exact ⟨l', List.mem_cons_of_mem l hl', hpiece⟩
      split at h
      · exact hrest h
      · rcases List.mem_cons.mp h with rfl | h
        · refine ⟨l, List.mem_cons_self, rfl, ?_⟩
          exact (trim_isInfix _).trans
            ((List.drop_suffix _ _).isInfix.trans (List.take_prefix _ _).isInfix)
        · exact hrest h

end CrossAssembler.Source
