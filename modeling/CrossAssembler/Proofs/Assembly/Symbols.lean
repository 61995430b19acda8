import CrossAssembler.Proofs.Assembly.Placement
import CrossAssembler.Proofs.Bus
import CrossAssembler.Proofs.Constants.Collection
import CrossAssembler.Proofs.Labels.Namespaces
import CrossAssembler.Proofs.Section.Listing
import Mathlib.Data.List.Nodup

namespace CrossAssembler

open Outcome Section

variable {bus : Bus} {pad : Bool} {raw : Text} {a : Assembly} {labels labels' : Labels}

def SectionKind.limit (bus : Bus) : SectionKind → Nat
  | .main => mainEnd
  | .interrupt => interruptEnd
  | .org _ => bus.space - 1

theorem SectionKind.limit_le (bus : Bus) (kind : SectionKind) :
    kind.limit bus ≤ bus.wordValues * bus.wordValues := by
  cases kind with
  | main => exact Nat.le_trans (by decide : mainEnd ≤ interruptEnd) bus.interruptEnd_le
  | interrupt => exact bus.interruptEnd_le
  | org _ => exact Nat.le_trans (Nat.sub_le _ _) bus.space_le

namespace SectionsEncode

variable {sites : List (Site × List SourceLine)} {sections : List Section}

theorem consts_eq (h : SectionsEncode bus labels sites labels' sections) :
    labels'.consts = labels.consts := by
  induction h with
  | nil => rfl
  | cons head _ ih => rw [ih, head.consts_eq]

theorem codes_eq (h : SectionsEncode bus labels sites labels' sections) :
    labels'.codes = labels.codes ++ sections.flatMap declarations := by
  induction h with
  | nil => simp
  | cons head _ ih =>
      rw [ih, head.codes_eq, List.flatMap_cons, List.append_assoc]
      rfl

theorem names_nodup (h : SectionsEncode bus labels sites labels' sections)
    (hnodup : (labels.codes.map Prod.fst).Nodup) : (labels'.codes.map Prod.fst).Nodup := by
  induction h with
  | nil => exact hnodup
  | cons head _ ih => exact ih (head.names_nodup hnodup)

theorem listed {final : Labels} (h : SectionsEncode bus labels sites labels' sections)
    (hconsts : labels.consts = final.consts) {s : Section} (hs : s ∈ sections) :
    Listed bus final 0 s.rows s.words := by
  induction h with
  | nil => simp at hs
  | cons head _ ih =>
      rcases List.mem_cons.mp hs with rfl | hs
      · exact head.listed hconsts
      · exact ih (head.consts_eq.trans hconsts) hs

theorem declared_ok (h : SectionsEncode bus labels sites labels' sections) {s : Section}
    (hs : s ∈ sections) {r : Row} (hr : r ∈ s.rows) {name : Text}
    (hname : r.declared? = some name) :
    checkName name = .ok () ∧ labels.consts.get? name = none ∧
      ∃ x ∈ sites, s.kind = x.1.kind ∧ s.base + r.offset < x.1.limit := by
  induction h with
  | nil => simp at hs
  | @cons _ _ _ site body _ _ _ _ head _ ih =>
      rcases List.mem_cons.mp hs with rfl | hs
      · obtain ⟨hnamed, hconst, hroom⟩ := head.declared_ok hr hname
        exact ⟨hnamed, hconst, _, List.mem_cons_self, rfl, hroom⟩
      · rw [← head.consts_eq]
        obtain ⟨hnamed, hconst, x, hx, hroom⟩ := ih hs
        exact ⟨hnamed, hconst, x, List.mem_cons_of_mem _ hx, hroom⟩

end SectionsEncode

theorem Program.Placed.limit_eq {p : Program} {sites : List (Site × List SourceLine)}
    (h : p.Placed bus sites) {x : Site × List SourceLine} (hx : x ∈ sites) :
    x.1.limit = x.1.kind.limit bus := by
  rcases h.cases hx with hsite | hsite | ⟨org, -, base, -, rfl⟩
  · rw [hsite]
    rfl
  · rw [hsite]
    rfl
  · rfl

namespace Run

theorem consts_eq (run : Run bus pad raw a) : a.labels.consts = run.constants.consts :=
  run.encoded.consts_eq

theorem codes_eq (run : Run bus pad raw a) :
    a.labels.codes = run.sections.flatMap declarations := by
  rw [run.encoded.codes_eq, Constants.codes_of_collect run.collected]
  rfl

theorem names_nodup (run : Run bus pad raw a) : (a.labels.codes.map Prod.fst).Nodup := by
  apply run.encoded.names_nodup
  rw [Constants.codes_of_collect run.collected]
  exact List.nodup_nil

theorem namesApart (run : Run bus pad raw a) : a.labels.NamesApart := by
  intro name hconst hcode
  rw [run.codes_eq] at hcode
  obtain ⟨⟨_, code⟩, hmem, rfl⟩ := List.mem_map.mp hcode
  obtain ⟨s, hs, hdeclared⟩ := List.mem_flatMap.mp hmem
  obtain ⟨r, hr, hname, -⟩ := mem_declarations.mp hdeclared
  obtain ⟨-, hfresh, -⟩ := run.encoded.declared_ok hs hr hname
  rw [run.consts_eq] at hconst
  exact NameTable.get?_eq_none_iff.mp hfresh hconst

theorem listed (run : Run bus pad raw a) {s : Section} (hs : s ∈ run.sections) :
    Listed bus a.labels 0 s.rows s.words :=
  run.encoded.listed run.consts_eq.symm hs

theorem declared_lt_limit (run : Run bus pad raw a) {s : Section} (hs : s ∈ run.sections) {r : Row}
    (hr : r ∈ s.rows) {name : Text} (hname : r.declared? = some name) :
    s.base + r.offset < s.kind.limit bus := by
  obtain ⟨-, -, x, hx, hkind, hroom⟩ := run.encoded.declared_ok hs hr hname
  rwa [hkind, ← run.placed.limit_eq hx]

theorem address?_eq_some_iff (run : Run bus pad raw a) {name : Text} {addr : Nat} :
    a.labels.address? name = some addr ↔
      ∃ s ∈ run.sections, ∃ r ∈ s.rows, r.declared? = some name ∧ addr = s.base + r.offset := by
  simp only [Labels.address?, Option.map_eq_some_iff,
    NameTable.get?_eq_some_iff_mem run.names_nodup]
  simp only [run.codes_eq, List.mem_flatMap, mem_declarations]
  constructor
  · rintro ⟨_, ⟨s, hs, r, hr, hname, rfl⟩, rfl⟩
    exact ⟨s, hs, r, hr, hname, rfl⟩
  · rintro ⟨s, hs, r, hr, hname, rfl⟩
    exact ⟨_, ⟨s, hs, r, hr, hname, rfl⟩, rfl⟩

theorem address?_lt (run : Run bus pad raw a) {name : Text} {addr : Nat}
    (h : a.labels.address? name = some addr) : addr < bus.wordValues * bus.wordValues := by
  obtain ⟨s, hs, r, hr, hname, rfl⟩ := run.address?_eq_some_iff.mp h
  exact Nat.lt_of_lt_of_le (run.declared_lt_limit hs hr hname) (s.kind.limit_le bus)

end Run

end CrossAssembler
