import CrossAssembler.Proofs.Text.Upper

namespace CrossAssembler.Text

def Blank (t : Text) : Prop :=
  ∀ c ∈ t, isBlank c = true

instance (t : Text) : Decidable (Blank t) :=
  List.decidableBAll (fun c => isBlank c = true) t

structure Tight (t : Text) : Prop where
  head : ∃ c ∈ t.head?, isBlank c = false
  last : ∃ c ∈ t.getLast?, isBlank c = false

namespace Blank

variable {s t : Text}

theorem append (hs : Blank s) (ht : Blank t) : Blank (s ++ t) := by
  intro c hc
  rcases List.mem_append.mp hc with hc | hc
  · exact hs c hc
  · exact ht c hc

theorem not_mem (h : Blank t) {c : Char} (hc : isBlank c = false) : c ∉ t := by
  intro hmem
  simp [h c hmem] at hc

theorem upper_eq (h : Blank t) : upper t = t := by
  induction t with
  | nil => rfl
  | cons c t ih =>
      rw [upper_cons, upperChar_of_isBlank (h c List.mem_cons_self),
        ih fun d hd => h d (List.mem_cons_of_mem c hd)]
      rfl

theorem trimStart_eq (h : Blank t) : trimStart t = [] := by
  rw [trimStart, ← List.append_nil t, List.dropWhile_append_of_pos h]
  rfl

theorem trim_eq (h : Blank t) : trim t = [] := by
  simp [trim, h.trimStart_eq, trimEnd]

end Blank

theorem trimStart_append {s t : Text} (hs : Blank s) (ht : ∃ c ∈ t.head?, isBlank c = false) :
    trimStart (s ++ t) = t := by
  obtain ⟨c, hc, hblank⟩ := ht
  obtain ⟨t', rfl⟩ := List.head?_eq_some_iff.mp hc
  rw [trimStart, List.dropWhile_append_of_pos hs]
  simp [hblank]

theorem trimEnd_append {s t : Text} (ht : Blank t) (hs : ∃ c ∈ s.getLast?, isBlank c = false) :
    trimEnd (s ++ t) = s := by
  have hlast : ∃ c ∈ s.reverse.head?, isBlank c = false := by simpa using hs
  have hblank : Blank t.reverse := fun c hc => ht c (List.mem_reverse.mp hc)
  have := trimStart_append hblank hlast
  rw [trimStart, ← List.reverse_append] at this
  rw [trimEnd, this, List.reverse_reverse]

namespace Tight

variable {core front back : Text}

theorem ne_nil (h : Tight core) : core ≠ [] := by
  rintro rfl
  obtain ⟨c, hc, -⟩ := h.head
  simp at hc

theorem of_not_isBlank (hne : core ≠ []) (h : ∀ c ∈ core, isBlank c = false) : Tight core := by
  constructor
  · exact ⟨core.head hne, List.head?_eq_some_head hne, h _ (List.head_mem hne)⟩
  · exact ⟨core.getLast hne, List.getLast?_eq_some_getLast hne, h _ (List.getLast_mem hne)⟩

theorem append (h : Tight front) (h' : Tight back) (mid : Text) : Tight (front ++ mid ++ back) := by
  constructor
  · obtain ⟨c, hc, hblank⟩ := h.head
    exact ⟨c, by simp [List.head?_append, Option.mem_def.mp hc], hblank⟩
  · obtain ⟨c, hc, hblank⟩ := h'.last
    exact ⟨c, by simp [List.getLast?_append, Option.mem_def.mp hc], hblank⟩

theorem head_append (h : Tight core) (back : Text) :
    ∃ c ∈ (core ++ back).head?, isBlank c = false := by
  obtain ⟨c, hc, hblank⟩ := h.head
  refine ⟨c, ?_, hblank⟩
  rw [List.head?_append, hc]
  rfl

theorem trim_append (h : Tight core) (hfront : Blank front) (hback : Blank back) :
    trim (front ++ core ++ back) = core := by
  rw [trim, List.append_assoc, trimStart_append hfront (h.head_append back),
    trimEnd_append hback h.last]

theorem trim_append_right (h : Tight core) (hback : Blank back) : trim (core ++ back) = core := by
  have hnil : Blank [] := by simp [Blank]
  simpa using h.trim_append hnil hback

theorem upper (h : Tight core) : Tight (upper core) := by
  constructor
  · obtain ⟨c, hc, hblank⟩ := h.head
    obtain ⟨rest, rfl⟩ := List.head?_eq_some_iff.mp hc
    obtain ⟨d, ds, hup⟩ := List.exists_cons_of_ne_nil (upperChar_ne_nil c)
    refine ⟨d, by simp [hup], isBlank_of_mem_upperChar hblank ?_⟩
    simp [hup]
  · obtain ⟨c, hc, hblank⟩ := h.last
    obtain ⟨rest, rfl⟩ := List.getLast?_eq_some_iff.mp hc
    have hlast := List.getLast?_eq_some_getLast (upperChar_ne_nil c)
    refine ⟨(upperChar c).getLast (upperChar_ne_nil c), ?_,
      isBlank_of_mem_upperChar hblank (List.getLast_mem _)⟩
    simp [List.getLast?_append, hlast]

end Tight

theorem exists_append_cons {t : Text} (h : ¬Blank t) :
    ∃ front c rest, Blank front ∧ isBlank c = false ∧ t = front ++ c :: rest := by
  induction t with
  | nil => exact absurd (by simp [Blank]) h
  | cons c t ih =>
      cases hc : isBlank c with
      | false => exact ⟨[], c, t, by simp [Blank], hc, rfl⟩
      | true =>
          have ht : ¬Blank t := by
            intro ht
            apply h
            simpa [Blank, hc] using ht
          obtain ⟨front, d, rest, hfront, hd, rfl⟩ := ih ht
          exact ⟨c :: front, d, rest, by simpa [Blank, hc] using hfront, hd, rfl⟩

theorem exists_trim_append {t : Text} (h : ¬Blank t) :
    ∃ front back, Blank front ∧ Blank back ∧ Tight (trim t) ∧ t = front ++ trim t ++ back := by
  obtain ⟨front, c, rest, hfront, hc, rfl⟩ := exists_append_cons h
  have hrest : ¬Blank (c :: rest).reverse := by
    intro hblank
    simp [hblank c (by simp)] at hc
  obtain ⟨back, d, core, hback, hd, heq⟩ := exists_append_cons hrest
  have heq : c :: rest = core.reverse ++ [d] ++ back.reverse := by
    simpa using congrArg List.reverse heq
  have hhead : (core.reverse ++ [d]).head? = some c := by
    have := congrArg List.head? heq
    rw [List.head?_append] at this
    simpa using this.symm
  have htight : Tight (core.reverse ++ [d]) :=
    ⟨⟨c, hhead, hc⟩, ⟨d, by simp, hd⟩⟩
  have hback : Blank back.reverse := fun x hx => hback x (List.mem_reverse.mp hx)
  have htrim : trim (front ++ c :: rest) = core.reverse ++ [d] := by
    rw [heq, ← List.append_assoc]
    exact htight.trim_append hfront hback
  refine ⟨front, back.reverse, hfront, hback, htrim ▸ htight, ?_⟩
  rw [htrim, heq, List.append_assoc front]

theorem infix_trimStart {u t : Text} (hu : ∃ c ∈ u.head?, isBlank c = false) (h : u <:+: t) :
    u <:+: trimStart t := by
  induction t with
  | nil => exact h
  | cons c t ih =>
      cases hc : isBlank c with
      | false => simpa [trimStart, hc] using h
      | true =>
          have hrest : u <:+: t := by
            rcases List.infix_cons_iff.mp h with hpre | hrest
            · obtain ⟨d, hd, hblank⟩ := hu
              obtain ⟨u, rfl⟩ := List.head?_eq_some_iff.mp hd
              obtain ⟨rfl, -⟩ := List.cons_prefix_cons.mp hpre
              simp [hc] at hblank
            · exact hrest
          simpa [trimStart, hc] using ih hrest

theorem Tight.infix_trim {u t : Text} (hu : Tight u) (h : u <:+: t) : u <:+: trim t := by
  have hstart := List.reverse_infix.mpr (infix_trimStart hu.head h)
  have hlast : ∃ c ∈ u.reverse.head?, isBlank c = false := by simpa using hu.last
  have hend := infix_trimStart hlast hstart
  rw [trim, trimEnd, ← List.reverse_infix, List.reverse_reverse]
  exact hend

theorem trim_isInfix (t : Text) : trim t <:+: t := by
  by_cases h : Blank t
  · rw [h.trim_eq]
    exact List.nil_infix
  · obtain ⟨front, back, -, -, -, heq⟩ := exists_trim_append h
    exact ⟨front, back, heq.symm⟩

theorem trim_append_of_blank (t : Text) {back : Text} (h : Blank back) :
    trim (t ++ back) = trim t := by
  by_cases ht : Blank t
  · rw [(ht.append h).trim_eq, ht.trim_eq]
  · obtain ⟨front, rest, hfront, hrest, htight, heq⟩ := exists_trim_append ht
    have hwhole : t ++ back = front ++ trim t ++ (rest ++ back) := by
      rw [← List.append_assoc, ← heq]
    rw [hwhole, htight.trim_append hfront (hrest.append h)]

theorem trim_of_blank_append {front : Text} (h : Blank front) (t : Text) :
    trim (front ++ t) = trim t := by
  rw [trim, trimStart, List.dropWhile_append_of_pos h]
  rfl

theorem upper_append_append {front core back : Text} (hfront : Blank front) (hback : Blank back) :
    upper (front ++ core ++ back) = front ++ upper core ++ back := by
  rw [upper_append, upper_append, hfront.upper_eq, hback.upper_eq]

theorem trim_upper (t : Text) : trim (upper t) = upper (trim t) := by
  by_cases h : Blank t
  · rw [h.upper_eq, h.trim_eq, upper_nil]
  · obtain ⟨front, back, hfront, hback, htight, heq⟩ := exists_trim_append h
    have hupper : upper t = front ++ upper (trim t) ++ back :=
      (congrArg upper heq).trans (upper_append_append hfront hback)
    rw [hupper, htight.upper.trim_append hfront hback]

end CrossAssembler.Text
