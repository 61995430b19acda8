import CrossAssembler.Labels
import CrossAssembler.Proofs.Outcome
import CrossAssembler.Proofs.Sequence
import Mathlib.Data.List.Induction
import Mathlib.Data.List.Nodup

namespace CrossAssembler

namespace NameTable

variable {α : Type}

theorem get?_eq_none_iff {t : NameTable α} {name : Text} :
    t.get? name = none ↔ name ∉ t.map Prod.fst := by
  induction t with
  | nil => simp [get?]
  | cons entry t ih =>
      obtain ⟨other, a⟩ := entry
      by_cases h : other = name
      · simp [get?, h]
      · simp [get?, h, ih, Ne.symm h]

theorem put_of_get?_eq_none {t : NameTable α} {name : Text} (a : α) (h : t.get? name = none) :
    t.put name a = t ++ [(name, a)] := by
  induction t with
  | nil => rfl
  | cons entry t ih =>
      obtain ⟨other, b⟩ := entry
      by_cases ho : other = name
      · simp [get?, ho] at h
      · simp only [get?, ho, if_false] at h
        simp [put, ho, ih h]

theorem mem_of_mem_put {t : NameTable α} {name : Text} {a : α} {entry : Text × α}
    (h : entry ∈ t.put name a) : entry = (name, a) ∨ entry ∈ t := by
  induction t with
  | nil => exact .inl (List.mem_singleton.mp h)
  | cons first t ih =>
      obtain ⟨other, b⟩ := first
      rw [put] at h
      split at h
      · exact (List.mem_cons.mp h).imp_right (List.mem_cons_of_mem _)
      · rcases List.mem_cons.mp h with rfl | h
        · exact .inr List.mem_cons_self
        · exact (ih h).imp_right (List.mem_cons_of_mem _)

theorem mem_map_fst_of_get? {t : NameTable α} {name : Text} {a : α} (h : t.get? name = some a) :
    name ∈ t.map Prod.fst := by
  by_contra hmem
  rw [get?_eq_none_iff.mpr hmem] at h
  simp at h

theorem get?_eq_some_iff_mem {t : NameTable α} {name : Text} {a : α}
    (h : (t.map Prod.fst).Nodup) : t.get? name = some a ↔ (name, a) ∈ t := by
  induction t with
  | nil => simp [get?]
  | cons entry t ih =>
      obtain ⟨other, b⟩ := entry
      simp only [List.map_cons, List.nodup_cons] at h
      obtain ⟨hnew, hrest⟩ := h
      by_cases ho : other = name
      · subst ho
        have hm : ∀ c, (other, c) ∉ t := fun c hc => hnew (List.mem_map.mpr ⟨_, hc, rfl⟩)
        simp [get?, hm a, eq_comm]
      · simp [get?, ho, ih hrest, Ne.symm ho]

theorem get?_append (t u : NameTable α) (name : Text) :
    get? name (t ++ u) = (t.get? name).or (u.get? name) := by
  induction t with
  | nil => rfl
  | cons entry t ih =>
      obtain ⟨other, a⟩ := entry
      by_cases h : other = name
      · simp [get?, h]
      · simp [get?, h, ih]

theorem get?_eq_of_perm {t u : NameTable α} (hperm : t.Perm u) (hnodup : (t.map Prod.fst).Nodup)
    (name : Text) : t.get? name = u.get? name := by
  have hnodup' : (u.map Prod.fst).Nodup := (hperm.map Prod.fst).nodup_iff.mp hnodup
  ext a
  rw [get?_eq_some_iff_mem hnodup, get?_eq_some_iff_mem hnodup', hperm.mem_iff]

theorem isSome_get?_iff {t : NameTable α} {name : Text} :
    (t.get? name).isSome = true ↔ name ∈ t.map Prod.fst := by
  rw [Option.isSome_iff_ne_none, Ne, get?_eq_none_iff, not_not]

theorem map_fst_put (t : NameTable α) (name : Text) (a : α) :
    (t.put name a).map Prod.fst =
      if name ∈ t.map Prod.fst then t.map Prod.fst else t.map Prod.fst ++ [name] := by
  induction t with
  | nil => simp [put]
  | cons entry t ih =>
      obtain ⟨other, b⟩ := entry
      by_cases h : other = name
      · simp [put, h]
      · rw [put, if_neg h, List.map_cons, ih]
        by_cases hmem : name ∈ t.map Prod.fst
        · simp [hmem]
        · simp [hmem, Ne.symm h]

theorem nodup_map_fst_put {t : NameTable α} (h : (t.map Prod.fst).Nodup) (name : Text) (a : α) :
    ((t.put name a).map Prod.fst).Nodup := by
  rw [map_fst_put]
  split
  · exact h
  · rename_i hnew
    rw [← List.concat_eq_append]
    exact h.concat hnew

def putAll (t : NameTable α) (entries : List (Text × α)) : NameTable α :=
  entries.foldl (fun t entry => t.put entry.1 entry.2) t

def last? (entries : List (Text × α)) (name : Text) : Option α :=
  (entries.reverse.find? (·.1 = name)).map Prod.snd

theorem putAll_append (t : NameTable α) (entries entries' : List (Text × α)) :
    t.putAll (entries ++ entries') = (t.putAll entries).putAll entries' :=
  List.foldl_append

theorem putAll_concat (t : NameTable α) (entries : List (Text × α)) (entry : Text × α) :
    t.putAll (entries ++ [entry]) = (t.putAll entries).put entry.1 entry.2 :=
  putAll_append t entries [entry]

theorem last?_eq_some_iff {entries : List (Text × α)} {name : Text} {a : α} :
    last? entries name = some a ↔
      ∃ before after, entries = before ++ (name, a) :: after ∧ ∀ e ∈ after, e.1 ≠ name := by
  simp only [last?, Option.map_eq_some_iff, List.find?_eq_some_iff_append, decide_eq_true_eq,
    Bool.not_eq_true', decide_eq_false_iff_not]
  constructor
  · rintro ⟨⟨_, _⟩, ⟨rfl, after, before, heq, hafter⟩, rfl⟩
    refine ⟨before.reverse, after.reverse, ?_, fun e he => hafter e (List.mem_reverse.mp he)⟩
    rw [← List.reverse_inj, heq]
    simp
  · rintro ⟨before, after, rfl, hafter⟩
    refine ⟨(name, a), ⟨rfl, after.reverse, before.reverse, by simp, fun e he => ?_⟩, rfl⟩
    exact hafter e (List.mem_reverse.mp he)

theorem last?_concat (entries : List (Text × α)) (entry : Text × α) (name : Text) :
    last? (entries ++ [entry]) name =
      if entry.1 = name then some entry.2 else last? entries name := by
  rw [last?, List.reverse_append, List.reverse_singleton, List.singleton_append, List.find?_cons]
  by_cases h : entry.1 = name
  · simp [h]
  · simp [h, last?]

theorem map_fst_putAll_nil (entries : List (Text × α)) :
    (putAll [] entries).map Prod.fst = (entries.map Prod.fst).eraseDups := by
  induction entries using List.reverseRecOn with
  | nil => rfl
  | append_singleton entries entry ih =>
      rw [putAll_concat, map_fst_put, ih, List.map_append, List.map_singleton,
        Sequence.eraseDups_concat]
      simp only [List.mem_eraseDups]

theorem nodup_map_fst_putAll_nil (entries : List (Text × α)) :
    ((putAll [] entries).map Prod.fst).Nodup := by
  induction entries using List.reverseRecOn with
  | nil => exact List.nodup_nil
  | append_singleton entries entry ih =>
      rw [putAll_concat]
      exact nodup_map_fst_put ih _ _

theorem get?_putAll_nil (entries : List (Text × α)) (name : Text) :
    (putAll [] entries).get? name = last? entries name := by
  induction entries using List.reverseRecOn with
  | nil => rfl
  | append_singleton entries entry ih =>
      rw [putAll_concat, last?_concat]
      split
      · rename_i h
        rw [h, get?_put_self]
      · rename_i h
        rw [get?_put_of_ne _ _ (Ne.symm h), ih]

end NameTable

namespace Labels

theorem result_bind (ls : Labels) (name : Text) (line : Nat) (kind : SectionKind) (address : Nat) :
    (ls.bind name line kind address).result =
      if name ∈ ls.consts.map Prod.fst then .error (.definedAsConstant name)
      else if name ∈ ls.codes.map Prod.fst then .error (.redefinedLabel name)
      else .ok { ls with codes := ls.codes ++ [(name, ⟨line, kind, address⟩)] } := by
  simp only [bind, NameTable.isSome_get?_iff]
  split
  · rfl
  · split
    · rfl
    · rename_i hcode
      rw [NameTable.put_of_get?_eq_none _ (NameTable.get?_eq_none_iff.mpr hcode)]
      rfl

theorem bind_eq_ok_iff {ls ls' : Labels} {name : Text} {line address : Nat} {kind : SectionKind} :
    (ls.bind name line kind address).result = .ok ls' ↔
      ls.consts.get? name = none ∧ ls.codes.get? name = none ∧
        ls' = { ls with codes := ls.codes ++ [(name, ⟨line, kind, address⟩)] } := by
  rw [result_bind, NameTable.get?_eq_none_iff, NameTable.get?_eq_none_iff]
  by_cases hconst : name ∈ ls.consts.map Prod.fst
  · rw [if_pos hconst]
    simp [hconst]
  · rw [if_neg hconst]
    by_cases hcode : name ∈ ls.codes.map Prod.fst
    · rw [if_pos hcode]
      simp [hcode]
    · rw [if_neg hcode, Except.ok.injEq, eq_comm]
      exact ⟨fun h => ⟨hconst, hcode, h⟩, fun h => h.2.2⟩

end Labels

end CrossAssembler
