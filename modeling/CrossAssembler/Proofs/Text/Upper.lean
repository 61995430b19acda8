import CrossAssembler.Text.Upper

namespace CrossAssembler.Text

def isCapital (c : Char) : Bool :=
  (0x41 ≤ c.toNat && c.toNat ≤ 0x5A) || (0xC0 ≤ c.toNat && !isBlank c)

def Raised (c : Char) (t : Text) : Prop :=
  t = [c] ∨ isBlank c = false ∧ t ≠ [] ∧ t.all isCapital = true

instance (c : Char) (t : Text) : Decidable (Raised c t) :=
  inferInstanceAs (Decidable (_ ∨ _))

theorem raised_ascii : ∀ n < 128, Raised (Char.ofNat n) [(Char.ofNat n).toUpper] := by
  decide +kernel

theorem raised_expansions : ∀ x ∈ caseExpansions,
    Raised (Char.ofNat x.1) (x.2.map Char.ofNat) := by
  decide +kernel

theorem raised_runs : ∀ r ∈ caseRuns, ∀ k < r.last - r.first + 1,
    Raised (Char.ofNat (r.first + k)) [Char.ofNat (r.target + k)] := by
  decide +kernel

theorem raised_upperWide (c : Char) : Raised c (upperWide c) := by
  unfold upperWide
  split
  · rename_i ns hns
    obtain ⟨before, after, hlist, -⟩ := List.lookup_eq_some_iff.mp hns
    have hmem : (c.toNat, ns) ∈ caseExpansions := by simp [hlist]
    simpa using raised_expansions _ hmem
  · split
    · rename_i r hr
      have hcovers := List.find?_some hr
      simp only [CaseRun.covers, Bool.and_eq_true, decide_eq_true_eq] at hcovers
      have := raised_runs r (List.mem_of_find?_eq_some hr) (c.toNat - r.first) (by omega)
      rwa [Nat.add_sub_cancel' hcovers.1.1, Char.ofNat_toNat] at this
    · exact .inl rfl

theorem raised_upperChar (c : Char) : Raised c (upperChar c) := by
  unfold upperChar
  split
  · rename_i h
    simpa using raised_ascii c.toNat h
  · exact raised_upperWide c

theorem upperChar_of_isBlank {c : Char} (h : isBlank c = true) : upperChar c = [c] := by
  rcases raised_upperChar c with hsame | ⟨hblank, -, -⟩
  · exact hsame
  · simp [h] at hblank

theorem upperChar_ne_nil (c : Char) : upperChar c ≠ [] := by
  rcases raised_upperChar c with hsame | ⟨-, hne, -⟩
  · simp [hsame]
  · exact hne

theorem not_isBlank_of_isCapital {c : Char} (h : isCapital c = true) : isBlank c = false := by
  simp only [isCapital, Bool.or_eq_true, Bool.and_eq_true, decide_eq_true_eq,
    Bool.not_eq_true'] at h
  rcases h with h | h
  · simp only [isBlank, Bool.or_eq_false_iff, Bool.and_eq_false_iff, decide_eq_false_iff_not,
      beq_eq_false_iff_ne]
    omega
  · exact h.2

theorem isBlank_of_mem_upperChar {c d : Char} (h : isBlank c = false) (hd : d ∈ upperChar c) :
    isBlank d = false := by
  rcases raised_upperChar c with hsame | ⟨-, -, hcapital⟩
  · rw [hsame, List.mem_singleton] at hd
    rwa [hd]
  · exact not_isBlank_of_isCapital (List.all_eq_true.mp hcapital d hd)

theorem mem_of_mem_upper {d : Char} {t : Text} (hd : isCapital d = false) (h : d ∈ upper t) :
    d ∈ t := by
  obtain ⟨c, hc, hmem⟩ := List.mem_flatMap.mp h
  rcases raised_upperChar c with hsame | ⟨-, -, hcapital⟩
  · rw [hsame, List.mem_singleton] at hmem
    rwa [hmem]
  · simp [List.all_eq_true.mp hcapital d hmem] at hd

theorem mem_upper_of_upperChar_eq {c : Char} {t : Text} (hc : upperChar c = [c]) (h : c ∈ t) :
    c ∈ upper t :=
  List.mem_flatMap.mpr ⟨c, h, by simp [hc]⟩

end CrossAssembler.Text
