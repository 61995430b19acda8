import CrossAssembler.Source
import CrossAssembler.Proofs.Text.Line
import CrossAssembler.Proofs.Text.Trim
import Mathlib.Data.List.TakeWhile

namespace CrossAssembler

namespace Text

def Filler (l : Text) : Prop :=
  ∃ front comment, l = front ++ comment ∧ Blank front ∧ (comment = [] ∨ ['/', '/'] <+: comment)

def Remarked (t : Text) : Prop :=
  ['/', '/'] <:+: t

theorem not_remarked_of_not_mem {t : Text} (h : '/' ∉ t) : ¬Remarked t := by
  rintro ⟨front, back, rfl⟩
  simp at h

theorem uncomment_isPrefix (t : Text) : uncomment t <+: t := by
  fun_induction uncomment t with
  | case1 => exact List.prefix_refl []
  | case2 => exact List.nil_prefix
  | case3 c t _ ih => exact List.cons_prefix_cons.mpr ⟨rfl, ih⟩

theorem uncomment_append {core back : Text} (hcore : ¬Remarked core) (hback : '/' ∉ back) :
    uncomment (core ++ back) = core ++ back := by
  induction core with
  | nil =>
      rw [List.nil_append]
      induction back with
      | nil => rfl
      | cons c back ih =>
          have hc : c ≠ '/' := by
            rintro rfl
            simp at hback
          rw [uncomment, ih fun hmem => hback (List.mem_cons_of_mem c hmem)]
          rintro t rfl
          exact absurd rfl hc
  | cons c core ih =>
      have hrest : ¬Remarked core := by
        intro hremark
        exact hcore (hremark.trans (List.suffix_cons c core).isInfix)
      rw [List.cons_append, uncomment, ih hrest]
      rintro t rfl heq
      cases core with
      | nil => exact hback (by simp_all)
      | cons d core =>
          obtain ⟨rfl, -⟩ : d = '/' ∧ core ++ back = t := by simpa using heq
          exact hcore ⟨[], core, rfl⟩

theorem uncomment_append_of_not_mem {front t : Text} (h : '/' ∉ front) :
    uncomment (front ++ t) = front ++ uncomment t := by
  induction front with
  | nil => rfl
  | cons c front ih =>
      simp only [List.mem_cons, not_or] at h
      rw [List.cons_append, uncomment, ih h.2]
      · rfl
      · rintro rest rfl
        exact absurd rfl h.1

theorem infix_of_significant? {line code : Text} (h : significant? line = some code) :
    code <:+: upper (uncomment line) := by
  unfold significant? at h
  dsimp only at h
  split at h
  · simp at h
  · obtain rfl := Option.some.inj h
    have hfront : '/' ∉ line.takeWhile isBlank := by
      intro hmem
      exact absurd (List.mem_takeWhile_imp hmem) (by decide)
    have hline : line = line.takeWhile isBlank ++ trimStart line :=
      List.takeWhile_append_dropWhile.symm
    have hcode : uncomment line = line.takeWhile isBlank ++ uncomment (trimStart line) :=
      (congrArg uncomment hline).trans (uncomment_append_of_not_mem hfront)
    rw [hcode, upper_append]
    exact (List.suffix_append _ _).isInfix

theorem significant?_of_filler {l l' : Text} (h : Filler l) (hchomped : Chomped l l') :
    significant? l' = none := by
  obtain ⟨front, comment, rfl, hfront, hcomment⟩ := h
  rcases hcomment with rfl | ⟨remark, rfl⟩
  · rw [List.append_nil] at hchomped
    obtain ⟨l', hpre, rfl⟩ := Chomped.append (s := []) hchomped (by simp)
    have hblank : Blank l' := fun c hc => hfront c (hpre.subset hc)
    simp [significant?, hblank.trimStart_eq, uncomment]
  · rw [← List.append_assoc] at hchomped
    obtain ⟨remark', -, rfl⟩ := hchomped.append (by simp)
    have htrim : trimStart (front ++ ['/', '/'] ++ remark') = ['/', '/'] ++ remark' := by
      rw [List.append_assoc]
      exact trimStart_append hfront ⟨'/', rfl, by decide⟩
    have hcode : uncomment (trimStart (front ++ ['/', '/'] ++ remark')) = [] := by
      rw [htrim]
      rfl
    simp only [significant?, hcode]
    rfl

theorem significant?_of_tight {front core back l' : Text} (hcore : Tight core)
    (hremark : ¬Remarked core) (hfront : Blank front) (hback : Blank back)
    (hchomped : Chomped (front ++ core ++ back) l') :
    ∃ back', back' <+: back ∧ significant? l' = some (upper core ++ back') := by
  obtain ⟨c, hc, hblank⟩ := hcore.last
  have hlast : (front ++ core).getLast? ≠ some '\r' := by
    rw [List.getLast?_append, hc]
    rintro heq
    obtain rfl : c = '\r' := by simpa using heq
    exact absurd hblank (by decide)
  obtain ⟨back', hpre, rfl⟩ := hchomped.append hlast
  have hback' : Blank back' := fun d hd => hback d (hpre.subset hd)
  have hcode : uncomment (trimStart (front ++ core ++ back')) = core ++ back' := by
    rw [List.append_assoc, trimStart_append hfront (hcore.head_append back'),
      uncomment_append hremark (hback'.not_mem (by decide))]
  have hsome : (core ++ back').all isBlank = false := by
    rw [List.all_eq_false]
    exact ⟨c, List.mem_append_left _ (List.mem_of_getLast? hc), by simp [hblank]⟩
  refine ⟨back', hpre, ?_⟩
  simp only [significant?, hcode, hsome]
  rw [upper_append, hback'.upper_eq]
  rfl

end Text

namespace Source

open Text

def significant (n : Nat) (ls : List Text) : List SourceLine :=
  (ls.zipIdx n).filterMap fun (line, number) =>
    line.significant?.map fun code => ⟨number, code⟩

theorem significant_cons_none {n : Nat} {l : Text} {ls : List Text} (h : l.significant? = none) :
    significant n (l :: ls) = significant (n + 1) ls := by
  simp [significant, h]

theorem significant_cons_some {n : Nat} {l code : Text} {ls : List Text}
    (h : l.significant? = some code) :
    significant n (l :: ls) = ⟨n, code⟩ :: significant (n + 1) ls := by
  simp [significant, h]

theorem significant_append_nil {n : Nat} {ls : List Text} :
    significant n (ls ++ [[]]) = significant n ls := by
  have hnil : significant? [] = none := rfl
  simp [significant, List.zipIdx_append, hnil]

theorem exists_of_mem_significant {n : Nat} {ls : List Text} {l : SourceLine}
    (h : l ∈ significant n ls) :
    n ≤ l.number ∧ ∃ line, ls[l.number - n]? = some line ∧ line.significant? = some l.text := by
  obtain ⟨⟨line, number⟩, hmem, hl⟩ := List.mem_filterMap.mp h
  obtain ⟨code, hcode, rfl⟩ := Option.map_eq_some_iff.mp hl
  obtain ⟨hle, hget⟩ := List.mem_zipIdx_iff_le_and_getElem?_sub.mp hmem
  exact ⟨hle, line, hget, hcode⟩

theorem lines_normalize_unlines {ls : List Text} (h : ∀ l ∈ ls, '\n' ∉ l) :
    ∃ ls', List.Forall₂ Chomped ls ls' ∧ (normalize (unlines ls)).lines = significant 1 ls' := by
  obtain ⟨ls', hchomped, hlines⟩ := lines_unlines h
  refine ⟨ls', hchomped, ?_⟩
  rcases hlines with rfl | rfl
  · rfl
  · rw [significant_append_nil]
    rfl

end Source

end CrossAssembler
