import CrossAssembler.Proofs.Bus
import CrossAssembler.Proofs.Image.Linking
import CrossAssembler.Proofs.Sequence

namespace CrossAssembler

open Outcome

variable {bus : Bus} {labels : Labels} {pad : Bool} {sections order : List Section} {addr : Nat}

theorem Section.isSome_lineAt?_iff {s : Section} {offset : Nat} :
    (s.lineAt? offset).isSome ↔
      ∃ r ∈ s.rows, r.offset ≤ offset ∧ offset < r.offset + r.size := by
  simp [lineAt?, Row.covers]

namespace Image

structure SortedByBase (sections order : List Section) : Prop where
  ascending : order.Pairwise (·.base ≤ ·.base)
  stable (base : Nat) : order.filter (·.base = base) = sections.filter (·.base = base)

theorem filter_byBase (sections : List Section) (base : Nat) :
    (byBase sections).filter (·.base = base) = sections.filter (·.base = base) := by
  have hequal : (sections.filter (·.base = base)).Pairwise fun s t =>
      decide (s.base ≤ t.base) = true := by
    apply List.pairwise_of_forall_mem_list
    intro s hs t ht
    have hs : s.base = base := by simpa using (List.mem_filter.mp hs).2
    have ht : t.base = base := by simpa using (List.mem_filter.mp ht).2
    simp [hs, ht]
  -- Sorting keeps a part that is in order as it is, and loses nothing of it.
  have hkept : (sections.filter (·.base = base)).Sublist
      ((byBase sections).filter (·.base = base)) := by
    simpa [byBase] using (List.sublist_mergeSort base_le_trans base_le_or_le hequal
      List.filter_sublist).filter (·.base = base)
  exact (hkept.eq_of_length ((List.mergeSort_perm sections _).filter _).length_eq.symm).symm

theorem sortedByBase_byBase (sections : List Section) : SortedByBase sections (byBase sections) :=
  ⟨pairwise_byBase sections, filter_byBase sections⟩

theorem SortedByBase.eq_byBase (h : SortedByBase sections order) : order = byBase sections := by
  have hsorted := sortedByBase_byBase sections
  refine Sequence.eq_of_filter_key_eq h.ascending hsorted.ascending fun base => ?_
  rw [h.stable, hsorted.stable]

theorem start_le_total (pad : Bool) (h : order.Pairwise (·.base ≤ ·.base)) :
    start order ≤ total pad order := by
  cases order with
  | nil => exact Nat.zero_le _
  | cons s rest => exact base_le_total h List.mem_cons_self

theorem mem_addresses_iff (h : order.Pairwise (·.base ≤ ·.base)) :
    addr ∈ addresses pad order ↔ start order ≤ addr ∧ addr < total pad order := by
  have := start_le_total pad h
  rw [addresses, List.mem_range'_1]
  omega

theorem exists_owner (h : start order ≤ addr) (hlt : addr < total pad order) :
    ∃ s, owner? order addr = some s := by
  cases order with
  | nil => simp [total] at hlt
  | cons s rest =>
      have hs : s.base ≤ addr := h
      exact ⟨_, List.getLast?_eq_some_getLast (by simp [hs])⟩

inductive Holds (bus : Bus) (labels : Labels) (order : List Section) (addr : Nat) : Nat → Prop
  | word {s : Section} {w : Word} {n : Nat} (owner : owner? order addr = some s)
      (here : s.words[addr - s.base]? = some w) (value : w.resolve bus labels = .ok n) :
      Holds bus labels order addr n
  | past {s : Section} (owner : owner? order addr = some s)
      (none : s.words.length ≤ addr - s.base) : Holds bus labels order addr 0

theorem valueAt_eq_ok_iff (h : ∃ s, owner? order addr = some s) {n : Nat} :
    valueAt bus labels order addr = .ok n ↔ Holds bus labels order addr n := by
  obtain ⟨s, hs⟩ := h
  simp only [valueAt, hs, Section.cell]
  constructor
  · intro hvalue
    split at hvalue
    · rename_i hnone
      obtain rfl := Except.ok.inj hvalue
      exact .past hs (List.getElem?_eq_none_iff.mp hnone)
    · rename_i w hw
      exact .word hs hw (mapError_eq_ok.mp hvalue)
  · intro hholds
    cases hholds with
    | word owner here value =>
        obtain rfl := Option.some.inj (hs.symm.trans owner)
        simp [here, value, Except.mapError]
    | past owner none =>
        obtain rfl := Option.some.inj (hs.symm.trans owner)
        simp [List.getElem?_eq_none none]

inductive Unresolved (labels : Labels) (order : List Section) (addr : Nat) (e : Error) : Prop
  | label {s : Section} {name : Text} {half : Half} (owner : owner? order addr = some s)
      (here : s.words[addr - s.base]? = some (.label name half))
      (unbound : labels.address? name = none) (fault : e.fault = .undefinedLabel name)
      (place : e.place = (s.lineAt? (addr - s.base)).map (Place.mk (.code s.kind)))
      (placed : e.place.isSome ↔
        ∃ r ∈ s.rows, r.offset ≤ addr - s.base ∧ addr - s.base < r.offset + r.size)

theorem valueAt_eq_error_iff {e : Error} :
    valueAt bus labels order addr = .error e ↔ Unresolved labels order addr e := by
  unfold valueAt
  constructor
  · intro hvalue
    split at hvalue
    · simp at hvalue
    · rename_i s hs
      obtain ⟨name, half, here, unbound, rfl⟩ := Section.cell_eq_error_iff.mp hvalue
      refine .label hs here unbound rfl rfl ?_
      rw [← Section.isSome_lineAt?_iff, Option.isSome_map]
  · rintro ⟨owner, here, unbound, fault, place, -⟩
    simp only [owner, Section.cell_eq_error_iff]
    exact ⟨_, _, here, unbound, by rw [← fault, ← place]⟩

theorem base_le_of_mem_stops (h : order.Pairwise (·.base ≤ ·.base)) {x : Section × Nat}
    (hx : x ∈ stops pad order) : x.1.base ≤ x.2 := by
  fun_induction stops pad order with
  | case1 => simp at hx
  | case2 s =>
      obtain rfl := List.mem_singleton.mp hx
      exact base_le_lastStop s
  | case3 s t rest ih =>
      obtain ⟨hs, hrest⟩ := List.pairwise_cons.mp h
      rcases List.mem_cons.mp hx with rfl | hx
      · exact hs t List.mem_cons_self
      · exact ih hrest hx

section Cut

variable {before after : List Section} {s t : Section} {words : List Word}

theorem fill_of_take_eq {stop : Nat}
    (h : words.take (stop - s.base) = s.words.take (stop - s.base)) :
    fill bus labels { s with words } stop = fill bus labels s stop := by
  have hresolve : ∀ offset ws, resolveFrom bus labels { s with words } offset ws =
      resolveFrom bus labels s offset ws := by
    intro offset ws
    induction ws generalizing offset with
    | nil => rfl
    | cons w ws ih => rw [resolveFrom, resolveFrom, ih]; rfl
  have hroom : stop - s.base - words.length = stop - s.base - s.words.length := by
    have := congrArg List.length h
    rw [List.length_take, List.length_take] at this
    omega
  simp only [fill, Section.size, hresolve, h, hroom]

theorem stops_cons {s : Section} {rest : List Section} (h : rest ≠ []) :
    stops pad (s :: rest) = (s, start rest) :: stops pad rest := by
  cases rest with
  | nil => exact absurd rfl h
  | cons t rest => rfl

theorem mapM_fill_of_take_eq (before after : List Section)
    (h : words.take (t.base - s.base) = s.words.take (t.base - s.base)) :
    ((stops pad (before ++ { s with words } :: t :: after)).mapM fun x =>
        fill bus labels x.1 x.2) =
      (stops pad (before ++ s :: t :: after)).mapM fun x => fill bus labels x.1 x.2 := by
  induction before with
  | nil =>
      rw [List.nil_append, List.nil_append, stops, stops, List.mapM_cons, List.mapM_cons,
        fill_of_take_eq h]
  | cons b before ih =>
      have hstart : start (before ++ { s with words } :: t :: after) =
          start (before ++ s :: t :: after) := by
        cases before <;> rfl
      rw [List.cons_append, List.cons_append, stops_cons (by simp), stops_cons (by simp),
        List.mapM_cons, List.mapM_cons, ih, hstart]

theorem pairwise_base_of_map_eq {order order' : List Section}
    (h : order'.map (·.base) = order.map (·.base)) (hsort : order.Pairwise (·.base ≤ ·.base)) :
    order'.Pairwise (·.base ≤ ·.base) := by
  rw [← List.pairwise_map (f := Section.base) (R := (· ≤ ·))] at hsort ⊢
  rwa [h]

theorem result_link_of_take_eq
    (hsort : (before ++ s :: t :: after).Pairwise (·.base ≤ ·.base))
    (h : words.take (t.base - s.base) = s.words.take (t.base - s.base)) :
    (link bus labels pad (before ++ { s with words } :: t :: after)).result =
      (link bus labels pad (before ++ s :: t :: after)).result := by
  have hsort' : (before ++ { s with words } :: t :: after).Pairwise (·.base ≤ ·.base) :=
    pairwise_base_of_map_eq (by simp) hsort
  have htotal : total pad (before ++ { s with words } :: t :: after) =
      total pad (before ++ s :: t :: after) := by
    simp [total, List.getLast?_append, List.getLast?_cons_cons]
  rw [result_link, result_link, byBase_eq_self hsort, byBase_eq_self hsort',
    ← mapM_fill_stops hsort, ← mapM_fill_stops hsort', mapM_fill_of_take_eq before after h, htotal]

end Cut

theorem result_link_of_sorted (h : SortedByBase sections order) :
    (link bus labels pad sections).result =
      if maxWords < total pad order then
        .error (Fault.imageTooLarge (total pad order) maxWords).bare
      else ((addresses pad order).mapM (valueAt bus labels order)).map (Image.mk bus) := by
  rw [result_link, h.eq_byBase]

theorem total_eq_of_getLast? {last : Section} (h : order.getLast? = some last) :
    total pad order =
      if pad then max last.stop ((last.kind.window?.map (·.2)).getD 0) else last.stop := by
  simp only [total, h, Option.map_some, Option.getD_some, lastStop]
  cases pad with
  | false => rfl
  | true => cases last.kind.window? <;> simp [Nat.max_comm]

theorem exists_link_eq_ok_iff (h : SortedByBase sections order)
    (hsize : total pad order ≤ maxWords) :
    (∃ image, (link bus labels pad sections).result = .ok image) ↔
      ∀ addr, start order ≤ addr → addr < total pad order → ∃ n, Holds bus labels order addr n := by
  have hvalues : (∃ words, (addresses pad order).mapM (valueAt bus labels order) = .ok words) ↔
      ∀ addr, start order ≤ addr → addr < total pad order →
        ∃ n, Holds bus labels order addr n := by
    rw [exists_mapM_eq_ok_iff]
    constructor
    · intro hall addr hstart hlt
      obtain ⟨n, hn⟩ := hall addr ((mem_addresses_iff h.ascending).mpr ⟨hstart, hlt⟩)
      exact ⟨n, (valueAt_eq_ok_iff (exists_owner hstart hlt)).mp hn⟩
    · intro hall addr haddr
      obtain ⟨hstart, hlt⟩ := (mem_addresses_iff h.ascending).mp haddr
      obtain ⟨n, hn⟩ := hall addr hstart hlt
      exact ⟨n, (valueAt_eq_ok_iff (exists_owner hstart hlt)).mpr hn⟩
  rw [result_link_of_sorted h, if_neg (Nat.not_lt.mpr hsize), ← hvalues]
  simp only [map_eq_ok]
  constructor
  · rintro ⟨_, words, hwords, -⟩
    exact ⟨words, hwords⟩
  · rintro ⟨words, hwords⟩
    exact ⟨_, words, hwords, rfl⟩

theorem words_of_link_eq_ok (h : SortedByBase sections order) {image : Image}
    (hlink : (link bus labels pad sections).result = .ok image) :
    image.bus = bus ∧ image.words.length = total pad order - start order ∧
      ∀ addr, start order ≤ addr → addr < total pad order →
        ∃ n, image.words[addr - start order]? = some n ∧ Holds bus labels order addr n := by
  obtain ⟨-, hbus, hwords⟩ := words_of_link hlink
  rw [← h.eq_byBase] at hwords
  have hlength : image.words.length = total pad order - start order := by
    rw [← hwords.length_eq, addresses, List.length_range']
  refine ⟨hbus, hlength, fun addr hstart hlt => ?_⟩
  have hi : addr - start order < image.words.length := by omega
  have hvalue := hwords.get (i := addr - start order) (by rw [hwords.length_eq]; exact hi) hi
  have haddr : start order + (addr - start order) = addr := by omega
  simp only [addresses, List.get_eq_getElem, List.getElem_range', Nat.one_mul, haddr] at hvalue
  exact ⟨_, List.getElem?_eq_getElem hi,
    (valueAt_eq_ok_iff (exists_owner hstart hlt)).mp hvalue⟩

theorem link_eq_error_iff (h : SortedByBase sections order) (hsize : total pad order ≤ maxWords)
    {e : Error} :
    (link bus labels pad sections).result = .error e ↔
      ∃ addr, start order ≤ addr ∧ addr < total pad order ∧ Unresolved labels order addr e ∧
        ∀ lower, start order ≤ lower → lower < addr →
          ∃ n, Holds bus labels order lower n := by
  have hle := start_le_total pad h.ascending
  rw [result_link_of_sorted h, if_neg (Nat.not_lt.mpr hsize), map_eq_error, mapM_eq_error_iff]
  constructor
  · rintro ⟨before, addr, after, heq, hbefore, hvalue⟩
    obtain ⟨k, hk, rfl, hrest⟩ := List.range'_eq_append_iff.mp heq
    obtain ⟨rfl, hpos, -⟩ := List.range'_eq_cons_iff.mp hrest.symm
    refine ⟨_, by omega, by omega, valueAt_eq_error_iff.mp hvalue, fun lower hstart hlt => ?_⟩
    have hlower : lower < total pad order := by omega
    obtain ⟨n, hn⟩ := hbefore lower (List.mem_range'_1.mpr ⟨hstart, by omega⟩)
    exact ⟨n, (valueAt_eq_ok_iff (exists_owner hstart hlower)).mp hn⟩
  · rintro ⟨addr, hstart, hlt, hunresolved, hlower⟩
    refine ⟨List.range' (start order) (addr - start order), addr,
      List.range' (addr + 1) (total pad order - (addr + 1)), ?_, ?_,
      valueAt_eq_error_iff.mpr hunresolved⟩
    · rw [addresses, List.range'_eq_append_iff]
      refine ⟨addr - start order, by omega, rfl, ?_⟩
      rw [eq_comm, List.range'_eq_cons_iff]
      exact ⟨by omega, by omega, by congr 1; omega⟩
    · intro lower hmem
      obtain ⟨hstart', hlt'⟩ := List.mem_range'_1.mp hmem
      have hlt'' : lower < total pad order := by omega
      obtain ⟨n, hn⟩ := hlower lower hstart' (by omega)
      exact ⟨n, (valueAt_eq_ok_iff (exists_owner hstart' hlt'')).mpr hn⟩

theorem link_by_address (bus : Bus) (labels : Labels) (pad : Bool) (sections : List Section) :
    (∃! order, SortedByBase sections order) ∧
    ∀ order, SortedByBase sections order →
      (∀ last, order.getLast? = some last → total pad order =
        if pad then max last.stop ((last.kind.window?.map (·.2)).getD 0) else last.stop) ∧
      (maxWords < total pad order → (link bus labels pad sections).result =
        .error (Fault.imageTooLarge (total pad order) maxWords).bare) ∧
      (total pad order ≤ maxWords →
        ((∃ image, (link bus labels pad sections).result = .ok image) ↔
          ∀ addr, start order ≤ addr → addr < total pad order →
            ∃ n, Holds bus labels order addr n) ∧
        ∀ e, (link bus labels pad sections).result = .error e ↔
          ∃ addr, start order ≤ addr ∧ addr < total pad order ∧ Unresolved labels order addr e ∧
            ∀ lower, start order ≤ lower → lower < addr →
              ∃ n, Holds bus labels order lower n) ∧
      (∀ image, (link bus labels pad sections).result = .ok image →
        image.bus = bus ∧ image.words.length = total pad order - start order ∧
          ∀ addr, start order ≤ addr → addr < total pad order →
            ∃ n, image.words[addr - start order]? = some n ∧ Holds bus labels order addr n) ∧
      (∀ x ∈ stops pad order, x.1.base ≤ x.2) ∧
      ∀ (before after : List Section) (s t : Section) (words : List Word),
        order = before ++ s :: t :: after →
        words.take (t.base - s.base) = s.words.take (t.base - s.base) →
        (link bus labels pad (before ++ { s with words } :: t :: after)).result =
          (link bus labels pad sections).result := by
  refine ⟨⟨_, sortedByBase_byBase sections, fun order h => h.eq_byBase⟩, fun order h => ?_⟩
  refine ⟨fun last => total_eq_of_getLast?, ?_, ?_, fun image => words_of_link_eq_ok h, ?_, ?_⟩
  · intro hlarge
    rw [result_link_of_sorted h, if_pos hlarge]
  · intro hsize
    exact ⟨exists_link_eq_ok_iff h hsize, fun e => link_eq_error_iff h hsize⟩
  · intro x hx
    exact base_le_of_mem_stops h.ascending hx
  · rintro before after s t words rfl hwords
    rw [result_link_of_take_eq h.ascending hwords, result_link_of_sorted h,
      result_link_of_sorted ⟨h.ascending, fun _ => rfl⟩]

def clippedSection : Section :=
  ⟨.org "$4".toList, 4, [.value 7, .label "NOWHERE".toList .low, .label "NOWHERE".toList .high], []⟩

def crowdedSections : List Section :=
  [clippedSection, ⟨.org "$5".toList, 5, [.value 8], []⟩,
    ⟨.interrupt, 5, [.label "LOOP".toList .low], [⟨3, 0, 1, "JMP LOOP".toList⟩]⟩,
    ⟨.main, 0, [.value 60], []⟩]

def crowdedOrder : List Section :=
  [⟨.main, 0, [.value 60], []⟩, clippedSection, ⟨.org "$5".toList, 5, [.value 8], []⟩,
    ⟨.interrupt, 5, [.label "LOOP".toList .low], [⟨3, 0, 1, "JMP LOOP".toList⟩]⟩]

def loopLabel : Labels :=
  { codes := [("LOOP".toList, ⟨1, .main, 2⟩)] }

theorem link_by_address_crowdedSections :
    SortedByBase crowdedSections crowdedOrder ∧
      ∃ image, (link sampleBus loopLabel false crowdedSections).result = .ok image ∧
        image.words.length = 6 ∧ image.words[5]? = some 2 := by
  have hsorted : SortedByBase crowdedSections crowdedOrder := by
    refine ⟨by decide, fun base => ?_⟩
    by_cases hmain : 0 = base
    · subst hmain
      decide
    · simp [crowdedSections, crowdedOrder, List.filter_cons, hmain]
  obtain ⟨-, -, hsmall, himage, -⟩ :=
    (link_by_address sampleBus loopLabel false crowdedSections).2 crowdedOrder hsorted
  have hvalues : ∀ addr < 6,
      (valueAt sampleBus loopLabel crowdedOrder addr).toOption.isSome = true := by decide
  have hall : ∀ addr, start crowdedOrder ≤ addr → addr < total false crowdedOrder →
      ∃ n, Holds sampleBus loopLabel crowdedOrder addr n := by
    intro addr hstart hlt
    obtain ⟨n, hn⟩ := Option.isSome_iff_exists.mp (hvalues addr hlt)
    exact ⟨n, (valueAt_eq_ok_iff (exists_owner hstart hlt)).mp (toOption_eq_some.mp hn)⟩
  obtain ⟨image, hlink⟩ := (hsmall (by decide)).1.mpr hall
  obtain ⟨-, hlength, hwords⟩ := himage image hlink
  obtain ⟨n, hn, hholds⟩ := hwords 5 (by decide) (by decide)
  have hvalue : valueAt sampleBus loopLabel crowdedOrder 5 = .ok 2 := by decide
  rw [← valueAt_eq_ok_iff ⟨_, rfl⟩, hvalue] at hholds
  obtain rfl := Except.ok.inj hholds
  exact ⟨hsorted, image, hlink, hlength, hn⟩

end Image

end CrossAssembler
