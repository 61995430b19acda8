import CrossAssembler.Constants
import CrossAssembler.Proofs.Labels.Table

namespace CrossAssembler.Constants

open Outcome

variable {labels labels' : Labels}

theorem result_collect_cons (labels : Labels) (line : SourceLine) (lines : List SourceLine) :
    (collect labels (line :: lines)).result =
      match assignment? line.text with
      | none => (collect labels lines).result
      | some (name, value) =>
          ((check name value).mapError (·.onLine .head line.number)) >>= fun l =>
            (collect (labels.define name line.number l).1 lines).result := by
  rw [collect]
  cases assignment? line.text with
  | none => rfl
  | some entry =>
      simp only [Traced.result_bind, Traced.result_ofExcept]
      congr 1
      funext l
      split <;> simp

theorem collect_cons_eq_ok {line : SourceLine} {lines : List SourceLine}
    (h : (collect labels (line :: lines)).result = .ok labels') :
    (collect labels lines).result = .ok labels' ∨
      ∃ name value l, check name value = .ok l ∧
        (collect (labels.define name line.number l).1 lines).result = .ok labels' := by
  rw [result_collect_cons] at h
  split at h
  · exact .inl h
  · obtain ⟨l, hl, hrest⟩ := bind_eq_ok.mp h
    exact .inr ⟨_, _, l, mapError_eq_ok.mp hl, hrest⟩

theorem codes_of_collect {lines : List SourceLine}
    (h : (collect labels lines).result = .ok labels') : labels'.codes = labels.codes := by
  induction lines generalizing labels with
  | nil =>
      obtain rfl : labels = labels' := by simpa [collect] using h
      rfl
  | cons line lines ih =>
      rcases collect_cons_eq_ok h with hrest | ⟨name, value, l, -, hrest⟩
      · exact ih hrest
      · rw [ih hrest]
        rfl

theorem check_eq_ok_iff {name value : Text} {l : Literal} :
    check name value = .ok l ↔ checkName name = .ok () ∧ Literal.parse? value = some l := by
  unfold check
  cases checkName name with
  | error f => simp
  | ok u => cases Literal.parse? value <;> simp

theorem checkName_of_collect {lines : List SourceLine}
    (h : (collect labels lines).result = .ok labels')
    (hlabels : ∀ entry ∈ labels.consts, checkName entry.1 = .ok ()) :
    ∀ entry ∈ labels'.consts, checkName entry.1 = .ok () := by
  induction lines generalizing labels with
  | nil =>
      obtain rfl : labels = labels' := by simpa [collect] using h
      exact hlabels
  | cons line lines ih =>
      rcases collect_cons_eq_ok h with hrest | ⟨name, value, l, hcheck, hrest⟩
      · exact ih hrest hlabels
      · refine ih hrest fun entry hentry => ?_
        rcases NameTable.mem_of_mem_put hentry with rfl | hentry
        · exact (check_eq_ok_iff.mp hcheck).1
        · exact hlabels entry hentry

theorem checkName_of_constant? {lines : List SourceLine}
    (h : (collect .empty lines).result = .ok labels) (hconsts : labels'.consts = labels.consts)
    {name : Text} {l : Literal} (hname : labels'.constant? name = some l) :
    checkName name = .ok () := by
  rw [Labels.constant?, hconsts, Option.map_eq_some_iff] at hname
  obtain ⟨c, hc, -⟩ := hname
  obtain ⟨entry, hentry, rfl⟩ := List.mem_map.mp (NameTable.mem_map_fst_of_get? hc)
  exact checkName_of_collect h (by simp [Labels.empty]) entry hentry

end CrossAssembler.Constants
