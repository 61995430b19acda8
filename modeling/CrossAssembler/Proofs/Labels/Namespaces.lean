import CrossAssembler.Proofs.Labels.History

namespace CrossAssembler

namespace Labels

variable {ls ls' : Labels} {c : Call} {answer : Answer}

def NamesApart (ls : Labels) : Prop :=
  ∀ name ∈ ls.consts.map Prod.fst, name ∉ ls.codes.map Prod.fst

instance (ls : Labels) : Decidable ls.NamesApart :=
  inferInstanceAs (Decidable (∀ name ∈ ls.consts.map Prod.fst, name ∉ ls.codes.map Prod.fst))

def Shadows (ls : Labels) : Call → Prop
  | .define name _ _ => name ∈ ls.codes.map Prod.fst
  | .bind .. => False

theorem Gives.namesApart_iff (h : ls.Gives c ls' answer) :
    ls'.NamesApart ↔ ls.NamesApart ∧ ¬ls.Shadows c := by
  cases h with
  | define name line value =>
      have hmem : ∀ other, other ∈ (ls.consts.put name ⟨line, value⟩).map Prod.fst ↔
          other ∈ ls.consts.map Prod.fst ∨ other = name := by
        intro other
        rw [NameTable.map_fst_put]
        split
        · rename_i hold
          exact ⟨.inl, fun h => h.elim id fun heq => heq ▸ hold⟩
        · rw [List.mem_append, List.mem_singleton]
      simp only [NamesApart, Shadows, hmem, or_imp, forall_and, forall_eq]
  | constant | label => simp only [Shadows, not_false_eq_true, and_true]
  | @fresh name line address kind hconst =>
      simp only [NamesApart, Shadows, not_false_eq_true, and_true, List.map_append,
        List.map_singleton, List.mem_append, List.mem_singleton, not_or]
      refine ⟨fun h other hother => (h other hother).1, fun h other hother => ⟨h other hother, ?_⟩⟩
      rintro rfl
      exact hconst hother

theorem namesApart_after_iff (calls : List Call) : (ls.after calls).NamesApart ↔
    ls.NamesApart ∧ ∀ before c rest, calls = before ++ c :: rest →
      ¬(ls.after before).Shadows c := by
  induction calls generalizing ls with
  | nil => simp [after]
  | cons first calls ih =>
      rw [after, ih, (ls.gives_call first).namesApart_iff, and_assoc]
      refine and_congr_right fun _ => ⟨?_, fun h => ⟨h [] first calls rfl, ?_⟩⟩
      · rintro ⟨hfirst, hrest⟩ before c rest heq
        cases before with
        | nil =>
            obtain ⟨rfl, -⟩ := List.cons.inj heq
            exact hfirst
        | cons _ before =>
            obtain ⟨rfl, hcalls⟩ := List.cons.inj heq
            exact hrest before c rest hcalls
      · intro before c rest heq
        exact h (first :: before) c rest (congrArg (first :: ·) heq)

theorem namesApart_iff_no_shadow (calls : List Call) :
    (empty.after calls).NamesApart ↔
      ∀ before name line value rest, calls = before ++ .define name line value :: rest →
        name ∉ (empty.after before).codes.map Prod.fst := by
  rw [namesApart_after_iff]
  constructor
  · rintro ⟨-, h⟩ before name line value rest heq
    exact h before (.define name line value) rest heq
  · intro h
    refine ⟨fun _ => nofun, fun before c rest heq => ?_⟩
    cases c with
    | define name line value => exact h before name line value rest heq
    | bind => exact id

theorem not_forall_namesApart : ¬∀ calls : List Call, (empty.after calls).NamesApart := by
  intro h
  exact absurd (h [.bind "SPEED".toList 4 .main 0, .define "SPEED".toList 1 ⟨.hex, 16⟩]) (by decide)

end Labels

end CrossAssembler
