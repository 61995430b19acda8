import CrossAssembler.Image
import CrossAssembler.Proofs.Outcome
import Mathlib.Data.List.Basic

namespace CrossAssembler

open Outcome

variable {bus : Bus} {labels : Labels} {pad : Bool}

def Section.cell (bus : Bus) (labels : Labels) (s : Section) (offset : Nat) : Except Error Nat :=
  match s.words[offset]? with
  | none => .ok 0
  | some w => (w.resolve bus labels).mapError fun f =>
      match s.lineAt? offset with
      | some line => f.onLine (.code s.kind) line
      | none => f.bare

theorem Word.resolve_eq_error_iff {w : Word} {f : Fault} :
    w.resolve bus labels = .error f ↔
      ∃ name half, w = .label name half ∧ labels.address? name = none ∧
        f = .undefinedLabel name := by
  cases w with
  | value n => simp [resolve]
  | label name half =>
      cases haddr : labels.address? name with
      | none => simp [resolve, haddr, eq_comm]
      | some addr => cases half <;> simp [resolve, haddr]

theorem Section.cell_eq_error_iff {s : Section} {offset : Nat} {e : Error} :
    s.cell bus labels offset = .error e ↔
      ∃ name half, s.words[offset]? = some (.label name half) ∧ labels.address? name = none ∧
        e = ⟨.undefinedLabel name, (s.lineAt? offset).map (Place.mk (.code s.kind))⟩ := by
  have hblame : ∀ f : Fault, (match s.lineAt? offset with
      | some line => f.onLine (.code s.kind) line
      | none => f.bare) = ⟨f, (s.lineAt? offset).map (Place.mk (.code s.kind))⟩ := by
    intro f
    cases s.lineAt? offset <;> rfl
  unfold Section.cell
  cases s.words[offset]? with
  | none => simp
  | some w => simp [mapError_eq_error, Word.resolve_eq_error_iff, hblame, and_assoc]

theorem Section.cell_of_size_le {s : Section} {offset : Nat} (h : s.size ≤ offset) :
    s.cell bus labels offset = .ok 0 := by
  have hnone : s.words[offset]? = none := List.getElem?_eq_none h
  simp [Section.cell, hnone]

namespace Image

def owner? (sections : List Section) (addr : Nat) : Option Section :=
  (sections.filter (·.base ≤ addr)).getLast?

def valueAt (bus : Bus) (labels : Labels) (sections : List Section) (addr : Nat) :
    Except Error Nat :=
  match owner? sections addr with
  | none => .ok 0
  | some s => s.cell bus labels (addr - s.base)

def start (sections : List Section) : Nat :=
  (sections.head?.map (·.base)).getD 0

def total (pad : Bool) (sections : List Section) : Nat :=
  (sections.getLast?.map (lastStop pad)).getD 0

def addresses (pad : Bool) (sections : List Section) : List Nat :=
  List.range' (start sections) (total pad sections - start sections)

theorem resolveFrom_eq_mapM {s : Section} {offset : Nat} {ws : List Word}
    (h : ws <+: s.words.drop offset) :
    resolveFrom bus labels s offset ws =
      (List.range' offset ws.length).mapM (s.cell bus labels) := by
  induction ws generalizing offset with
  | nil => rfl
  | cons w ws ih =>
      obtain ⟨rest, hrest⟩ := h
      have hget : s.words[offset]? = some w := by
        have := congrArg List.head? hrest
        simpa using this.symm
      have htail : ws <+: s.words.drop (offset + 1) := by
        refine ⟨rest, ?_⟩
        rw [← List.tail_drop, ← hrest]
        rfl
      rw [List.length_cons, List.range'_succ, List.mapM_cons, Section.cell, hget, ← ih htail]
      rfl

theorem fill_eq_mapM (s : Section) (stop : Nat) :
    fill bus labels s stop = (List.range' 0 (stop - s.base)).mapM (s.cell bus labels) := by
  have hsplit : List.range' 0 (stop - s.base) =
      List.range' 0 (s.words.take (stop - s.base)).length ++
        List.range' (min (stop - s.base) s.size) (stop - s.base - s.size) := by
    rw [List.length_take, ← Section.size]
    have := List.range'_append_1 (s := 0) (m := min (stop - s.base) s.size)
      (n := stop - s.base - s.size)
    rw [Nat.zero_add] at this
    rw [this]
    congr 1
    omega
  have hzeros : (List.range' (min (stop - s.base) s.size) (stop - s.base - s.size)).mapM
      (s.cell bus labels) = .ok (List.replicate (stop - s.base - s.size) 0) := by
    rw [mapM_eq_ok_replicate (b := 0), List.length_range']
    intro x hx
    rw [List.mem_range'_1] at hx
    exact Section.cell_of_size_le (by omega)
  rw [hsplit, List.mapM_append, hzeros,
    ← resolveFrom_eq_mapM (by simpa using List.take_prefix _ _)]
  rfl

theorem owner?_cons_of_lt {s : Section} {rest : List Section} {addr : Nat}
    (hs : s.base ≤ addr) (h : ∀ t ∈ rest, addr < t.base) : owner? (s :: rest) addr = some s := by
  have hrest : rest.filter (·.base ≤ addr) = [] := by
    rw [List.filter_eq_nil_iff]
    intro t ht
    have := h t ht
    simp only [decide_eq_true_eq]
    omega
  simp [owner?, hs, hrest]

theorem owner?_cons_of_le {s t : Section} {rest : List Section} {addr : Nat}
    (h : t.base ≤ addr) : owner? (s :: t :: rest) addr = owner? (t :: rest) addr := by
  by_cases hs : s.base ≤ addr
  · simp [owner?, hs, h, List.getLast?_cons_cons]
  · simp [owner?, hs]

theorem base_le_lastStop (s : Section) : s.base ≤ lastStop pad s := by
  have : s.base ≤ s.stop := Nat.le_add_right _ _
  unfold lastStop
  split
  · exact Nat.le_trans this (Nat.le_max_right _ _)
  · exact this

theorem exists_first {sections : List Section} (hsort : sections.Pairwise (·.base ≤ ·.base))
    (hne : sections ≠ []) :
    ∃ first ∈ sections, sections.head? = some first ∧ ∀ s ∈ sections, first.base ≤ s.base := by
  obtain ⟨first, rest, rfl⟩ := List.exists_cons_of_ne_nil hne
  refine ⟨first, List.mem_cons_self, rfl, fun s hs => ?_⟩
  rcases List.mem_cons.mp hs with rfl | hs
  · exact Nat.le_refl _
  · exact (List.pairwise_cons.mp hsort).1 s hs

theorem exists_last {sections : List Section} (hsort : sections.Pairwise (·.base ≤ ·.base))
    (hne : sections ≠ []) :
    ∃ last ∈ sections, sections.getLast? = some last ∧ ∀ s ∈ sections, s.base ≤ last.base := by
  obtain ⟨init, last, rfl⟩ := (List.eq_nil_or_concat' sections).resolve_left hne
  refine ⟨last, by simp, by simp, fun s hs => ?_⟩
  rcases List.mem_append.mp hs with hs | hs
  · exact (List.pairwise_append.mp hsort).2.2 s hs last (by simp)
  · exact Nat.le_of_eq (by rw [List.mem_singleton.mp hs])

theorem base_le_total {s : Section} {sections : List Section}
    (hsort : sections.Pairwise (·.base ≤ ·.base)) (hs : s ∈ sections) :
    s.base ≤ total pad sections := by
  obtain ⟨last, -, hlast, hle⟩ := exists_last hsort (List.ne_nil_of_mem hs)
  rw [total, hlast]
  exact Nat.le_trans (hle s hs) (base_le_lastStop last)

theorem fill_eq_mapM_valueAt {s : Section} {rest : List Section} {stop : Nat}
    (h : ∀ t ∈ rest, stop ≤ t.base) :
    fill bus labels s stop =
      (List.range' s.base (stop - s.base)).mapM (valueAt bus labels (s :: rest)) := by
  rw [fill_eq_mapM, List.range'_eq_map_range, List.range'_eq_map_range, List.mapM_map,
    List.mapM_map]
  apply mapM_congr
  intro k hk
  have howner : owner? (s :: rest) (s.base + k) = some s := by
    apply owner?_cons_of_lt (Nat.le_add_right _ _)
    intro t ht
    have := h t ht
    rw [List.mem_range] at hk
    omega
  simp [valueAt, howner]

theorem addresses_cons_cons {s t : Section} {rest : List Section}
    (hsort : (s :: t :: rest).Pairwise (·.base ≤ ·.base)) :
    addresses pad (s :: t :: rest) =
      List.range' s.base (t.base - s.base) ++ addresses pad (t :: rest) := by
  have hst : s.base ≤ t.base := (List.pairwise_cons.mp hsort).1 t List.mem_cons_self
  have htotal : t.base ≤ total pad (t :: rest) :=
    base_le_total (List.pairwise_cons.mp hsort).2 List.mem_cons_self
  have hsame : total pad (s :: t :: rest) = total pad (t :: rest) := by
    simp [total, List.getLast?_cons_cons]
  have := List.range'_append_1 (s := s.base) (m := t.base - s.base)
    (n := total pad (t :: rest) - t.base)
  rw [show s.base + (t.base - s.base) = t.base by omega] at this
  simp only [addresses, start, List.head?_cons, Option.map_some, Option.getD_some, hsame, this]
  congr 1
  omega

theorem mapM_fill_stops {sections : List Section}
    (hsort : sections.Pairwise (·.base ≤ ·.base)) :
    ((stops pad sections).mapM fun x => fill bus labels x.1 x.2).map List.flatten =
      (addresses pad sections).mapM (valueAt bus labels sections) := by
  fun_induction stops pad sections with
  | case1 => rfl
  | case2 s =>
      have haddr : addresses pad [s] = List.range' s.base (lastStop pad s - s.base) := by
        simp [addresses, start, total]
      have hrest : ∀ t ∈ ([] : List Section), lastStop pad s ≤ t.base := by simp
      rw [map_flatten_mapM_cons, fill_eq_mapM_valueAt hrest, haddr]
      cases (List.range' s.base (lastStop pad s - s.base)).mapM (valueAt bus labels [s]) with
      | error e => rfl
      | ok words => simp [pure, Except.pure, Except.map]
  | case3 s t rest ih =>
      obtain ⟨hs, hrest⟩ := List.pairwise_cons.mp hsort
      have hnext : ∀ u ∈ t :: rest, t.base ≤ u.base := by
        intro u hu
        rcases List.mem_cons.mp hu with rfl | hu
        · exact Nat.le_refl _
        · exact (List.pairwise_cons.mp hrest).1 u hu
      have hlater : (addresses pad (t :: rest)).mapM (valueAt bus labels (t :: rest)) =
          (addresses pad (t :: rest)).mapM (valueAt bus labels (s :: t :: rest)) := by
        apply mapM_congr
        intro addr haddr
        simp only [addresses, start, List.head?_cons, Option.map_some, Option.getD_some,
          List.mem_range'_1] at haddr
        simp [valueAt, owner?_cons_of_le haddr.1]
      rw [map_flatten_mapM_cons, ih hrest, fill_eq_mapM_valueAt hnext, hlater,
        addresses_cons_cons hsort, List.mapM_append]

theorem base_le_trans (s t u : Section) (hst : decide (s.base ≤ t.base) = true)
    (htu : decide (t.base ≤ u.base) = true) : decide (s.base ≤ u.base) = true := by
  simp only [decide_eq_true_eq] at hst htu ⊢
  exact Nat.le_trans hst htu

theorem base_le_or_le (s t : Section) :
    (decide (s.base ≤ t.base) || decide (t.base ≤ s.base)) = true := by
  simpa using Nat.le_total _ _

theorem pairwise_byBase (sections : List Section) :
    (byBase sections).Pairwise (·.base ≤ ·.base) := by
  simpa [byBase] using List.pairwise_mergeSort base_le_trans base_le_or_le sections

theorem byBase_eq_self {sections : List Section} (h : sections.Pairwise (·.base ≤ ·.base)) :
    byBase sections = sections := by
  apply List.mergeSort_of_pairwise
  simpa using h

theorem getLast?_stops (sections : List Section) :
    (((stops pad sections).getLast?).map (·.2)).getD 0 = total pad sections := by
  fun_induction stops pad sections with
  | case1 => rfl
  | case2 s => rfl
  | case3 s t rest ih =>
      have hne : stops pad (t :: rest) ≠ [] := by cases rest <;> simp [stops]
      obtain ⟨x, xs, hx⟩ := List.exists_cons_of_ne_nil hne
      rw [hx, List.getLast?_cons_cons, ← hx, ih]
      simp [total, List.getLast?_cons_cons]

theorem result_link (sections : List Section) :
    (link bus labels pad sections).result =
      if maxWords < total pad (byBase sections) then
        .error (Fault.imageTooLarge (total pad (byBase sections)) maxWords).bare
      else
        ((addresses pad (byBase sections)).mapM (valueAt bus labels (byBase sections))).map
          (Image.mk bus) := by
  rw [← mapM_fill_stops (pairwise_byBase sections)]
  simp only [link, getLast?_stops]
  split
  · rfl
  · simp only [Traced.result_bind, Traced.result_ofExcept, Traced.result_tell, Traced.result_pure,
      ok_bind]
    cases (stops pad (byBase sections)).mapM fun x => fill bus labels x.1 x.2 <;> rfl

theorem words_of_link {sections : List Section} {image : Image}
    (h : (link bus labels pad sections).result = .ok image) :
    total pad (byBase sections) ≤ maxWords ∧ image.bus = bus ∧
      List.Forall₂ (fun addr n => valueAt bus labels (byBase sections) addr = .ok n)
        (addresses pad (byBase sections)) image.words := by
  rw [result_link, guard_eq_ok, map_eq_ok] at h
  obtain ⟨hsize, words, hwords, rfl⟩ := h
  exact ⟨Nat.not_lt.mp hsize, rfl, mapM_eq_ok.mp hwords⟩

end Image

end CrossAssembler
