import CrossAssembler.Assembly
import CrossAssembler.Proofs.Source.Extent
import Mathlib.Data.List.Sort

namespace CrossAssembler

open Outcome Text

def Span.map (f : Nat → Nat) (s : Span) : Span :=
  ⟨f s.start, f s.stop⟩

namespace Source

variable {l l' : SourceLine} {ls ls' : List SourceLine} {u : Text} {p q : Nat}

structure Pads (l l' : SourceLine) : Prop where
  number_eq : l'.number = l.number
  padded : ∃ back, Blank back ∧ l'.text = l.text ++ back
  line : '\n' ∉ l'.text

theorem Pads.length_le (h : Pads l l') : l.text.length ≤ l'.text.length := by
  obtain ⟨back, -, heq⟩ := h.padded
  rw [heq, List.length_append]
  omega

theorem Pads.refl (h : '\n' ∉ l.text) : Pads l l :=
  ⟨rfl, ⟨[], by simp [Blank], by simp⟩, h⟩

theorem Pads.newline_not_mem (h : Pads l l') : '\n' ∉ l.text := by
  obtain ⟨back, -, heq⟩ := h.padded
  intro hmem
  exact h.line (heq ▸ List.mem_append_left back hmem)

def shift : List SourceLine → List SourceLine → Nat → Nat
  | l :: ls, l' :: ls', p =>
      if p ≤ l.text.length then p
      else l'.text.length + 1 + shift ls ls' (p - (l.text.length + 1))
  | _, _, p => p

theorem shift_of_le (h : p ≤ l.text.length) : shift (l :: ls) (l' :: ls') p = p := by
  rw [shift, if_pos h]

theorem shift_of_lt (h : l.text.length < p) : shift (l :: ls) (l' :: ls') p =
    l'.text.length + 1 + shift ls ls' (p - (l.text.length + 1)) := by
  rw [shift, if_neg (Nat.not_le.mpr h)]

theorem shift_zero : shift ls ls' 0 = 0 := by
  unfold shift
  split <;> simp

theorem shift_sub (h : Pads l l') : shift (l :: ls) (l' :: ls') p - (l'.text.length + 1) =
    shift ls ls' (p - (l.text.length + 1)) := by
  have hlength := h.length_le
  rcases Nat.lt_or_ge l.text.length p with hlt | hle
  · rw [shift_of_lt hlt, Nat.add_sub_cancel_left]
  · rw [shift_of_le hle, show p - (l.text.length + 1) = 0 by omega, shift_zero]
    omega

theorem shift_lt_shift (h : List.Forall₂ Pads ls ls') (hlt : p < q) :
    shift ls ls' p < shift ls ls' q := by
  induction h generalizing p q with
  | nil => exact hlt
  | @cons l l' ls ls' head _ ih =>
      have hlength := head.length_le
      rcases Nat.lt_or_ge l.text.length q with hq | hq
      · rw [shift_of_lt hq]
        rcases Nat.lt_or_ge l.text.length p with hp | hp
        · rw [shift_of_lt hp]
          exact Nat.add_lt_add_left (ih (by omega)) _
        · rw [shift_of_le hp]
          omega
      · rw [shift_of_le hq, shift_of_le (by omega)]
        exact hlt

theorem shift_le_shift_iff (h : List.Forall₂ Pads ls ls') :
    shift ls ls' p ≤ shift ls ls' q ↔ p ≤ q := by
  constructor
  · intro hle
    by_contra hlt
    have := shift_lt_shift h (Nat.not_le.mp hlt)
    omega
  · intro hle
    rcases Nat.lt_or_eq_of_le hle with hlt | rfl
    · exact Nat.le_of_lt (shift_lt_shift h hlt)
    · exact Nat.le_refl _

theorem shift_add_sub (h : List.Forall₂ Pads ls ls') (p k : Nat) :
    shift ls ls' p + (shift ls ls' (p + k) - shift ls ls' p) = shift ls ls' (p + k) :=
  Nat.add_sub_cancel' ((shift_le_shift_iff h).mpr (Nat.le_add_right p k))

theorem shift_length (h : List.Forall₂ Pads ls ls') :
    shift ls ls' (textOf ls).length = (textOf ls').length := by
  induction h with
  | nil => rfl
  | cons head _ ih =>
      rw [length_textOf_cons, length_textOf_cons, shift_of_lt (by omega), Nat.add_sub_cancel_left,
        ih]

theorem shift_append (before : List SourceLine) (k : Nat) :
    shift (before ++ ls) (before ++ ls') ((textOf before).length + k) =
      (textOf before).length + shift ls ls' k := by
  induction before with
  | nil => simp
  | cons b before ih =>
      rw [List.cons_append, List.cons_append, length_textOf_cons, shift_of_lt (by omega),
        show b.text.length + 1 + (textOf before).length + k - (b.text.length + 1) =
          (textOf before).length + k by omega, ih]
      omega

theorem prefix_shift (h : List.Forall₂ Pads ls ls') (hline : '\n' ∉ u)
    (hu : u <+: (textOf ls).drop p) :
    shift ls ls' (p + u.length) = shift ls ls' p + u.length ∧
      u <+: (textOf ls').drop (shift ls ls' p) := by
  induction h generalizing p with
  | nil => exact ⟨rfl, by simpa using hu⟩
  | @cons l l' ls ls' head _ ih =>
      rcases prefix_drop_textOf_cons hline hu with ⟨hroom, hpre⟩ | ⟨hlt, hpre⟩
      · rw [shift_of_le hroom, shift_of_le (by omega)]
        refine ⟨rfl, ?_⟩
        obtain ⟨back, -, heq⟩ := head.padded
        rw [textOf_cons, heq, List.append_assoc, List.drop_append_of_le_length (by omega)]
        exact hpre.trans (List.prefix_append _ _)
      · obtain ⟨hadd, hpre'⟩ := ih hpre
        rw [shift_of_lt hlt, shift_of_lt (by omega)]
        constructor
        · rw [show p + u.length - (l.text.length + 1) = p - (l.text.length + 1) + u.length by omega,
            hadd]
          omega
        · rwa [textOf_cons, List.drop_append, List.drop_eq_nil_of_le (by omega), List.nil_append,
            show l'.text.length + 1 + shift ls ls' (p - (l.text.length + 1)) - l'.text.length =
              shift ls ls' (p - (l.text.length + 1)) + 1 by omega, List.drop_succ_cons]

theorem Pads.prefix_drop (h : Pads l l') (hu : Tight u) (hpre : u <+: l'.text.drop q) :
    q + u.length ≤ l.text.length ∧ u <+: l.text.drop q := by
  obtain ⟨back, hback, heq⟩ := h.padded
  have hle : q + u.length ≤ l.text.length := by
    by_contra hlong
    obtain ⟨c, hc, hblank⟩ := hu.last
    have hpos : 0 < u.length := List.length_pos_iff.mpr hu.ne_nil
    have hlast : l'.text[q + (u.length - 1)]? = some c := by
      obtain ⟨rest, hrest⟩ := hpre
      rw [← List.getElem?_drop, ← hrest, List.getElem?_append_left (by omega),
        ← List.getLast?_eq_getElem?]
      exact hc
    rw [heq, List.getElem?_append_right (by omega)] at hlast
    simp [hback c (List.mem_of_getElem? hlast)] at hblank
  refine ⟨hle, ?_⟩
  rw [heq, List.drop_append_of_le_length (by omega)] at hpre
  exact List.prefix_of_prefix_length_le hpre (List.prefix_append _ _)
    (by rw [List.length_drop]; omega)

theorem exists_shift (h : List.Forall₂ Pads ls ls') (hu : Tight u) (hline : '\n' ∉ u)
    (hpre : u <+: (textOf ls').drop q) : ∃ p, q = shift ls ls' p ∧ u <+: (textOf ls).drop p := by
  induction h generalizing q with
  | nil => exact ⟨q, rfl, hpre⟩
  | @cons l l' ls ls' head _ ih =>
      rcases prefix_drop_textOf_cons hline hpre with ⟨-, hpre⟩ | ⟨hlt, hpre⟩
      · obtain ⟨hroom, hpre⟩ := head.prefix_drop hu hpre
        refine ⟨q, (shift_of_le (by omega)).symm, ?_⟩
        rw [textOf_cons, List.drop_append_of_le_length (by omega)]
        exact hpre.trans (List.prefix_append _ _)
      · obtain ⟨p, hp, hpre⟩ := ih hpre
        refine ⟨l.text.length + 1 + p, ?_, ?_⟩
        · rw [shift_of_lt (by omega), Nat.add_sub_cancel_left]
          omega
        · rwa [textOf_cons, List.drop_append, List.drop_eq_nil_of_le (by omega), List.nil_append,
            show l.text.length + 1 + p - l.text.length = p + 1 by omega, List.drop_succ_cons]

theorem reads_shift_iff (h : List.Forall₂ Pads ls ls') (hmark : u ∈ Directive.marks)
    {stop : Nat} : Reads ⟨ls'⟩ u (shift ls ls' stop) q ↔
      ∃ p, q = shift ls ls' p ∧ Reads ⟨ls⟩ u stop p := by
  have hline := Directive.newline_not_mem hmark
  constructor
  · rintro ⟨hpre, hstop⟩
    obtain ⟨p, rfl, hpre'⟩ := exists_shift h (Directive.tight_of_mem_marks hmark) hline hpre
    refine ⟨p, rfl, hpre', ?_⟩
    rwa [← (prefix_shift h hline hpre').1, shift_le_shift_iff h] at hstop
  · rintro ⟨p, rfl, hpre, hstop⟩
    obtain ⟨hadd, hpre'⟩ := prefix_shift h hline hpre
    exact ⟨hpre', hadd ▸ (shift_le_shift_iff h).mpr hstop⟩

theorem exists_drop_take (h : Pads l l') (ls ls' : List SourceLine) (start stop : Nat) :
    ∃ back, Blank back ∧
      (l'.text.take (shift (l :: ls) (l' :: ls') stop)).drop (shift (l :: ls) (l' :: ls') start) =
        (l.text.take stop).drop start ++ back := by
  obtain ⟨back, hback, heq⟩ := h.padded
  have hlength := h.length_le
  rcases Nat.lt_or_ge l.text.length start with hstart | hstart
  · refine ⟨[], by simp [Blank], ?_⟩
    rw [shift_of_lt hstart, List.drop_eq_nil_of_le, List.drop_eq_nil_of_le]
    · rfl
    · rw [List.length_take]
      omega
    · rw [List.length_take]
      omega
  · rw [shift_of_le hstart]
    rcases Nat.lt_or_ge l.text.length stop with hstop | hstop
    · refine ⟨back, hback, ?_⟩
      rw [shift_of_lt hstop, List.take_of_length_le (by omega), List.take_of_length_le (by omega),
        heq, List.drop_append_of_le_length hstart]
    · refine ⟨[], by simp [Blank], ?_⟩
      rw [shift_of_le hstop, heq, List.take_append_of_le_length hstop, List.append_nil]

theorem piecesIn_shift (h : List.Forall₂ Pads ls ls') (start stop : Nat) :
    piecesIn ls' (shift ls ls' start) (shift ls ls' stop) = piecesIn ls start stop := by
  induction h generalizing start stop with
  | nil => rfl
  | @cons l l' ls ls' head _ ih =>
      obtain ⟨back, hback, hpiece⟩ := exists_drop_take head ls ls' start stop
      rw [piecesIn, piecesIn, hpiece, trim_append_of_blank _ hback, shift_sub head, shift_sub head,
        ih, head.number_eq]

theorem numberAt_shift (h : List.Forall₂ Pads ls ls') (p : Nat) :
    numberAt ls' (shift ls ls' p) = numberAt ls p := by
  induction h generalizing p with
  | nil => rfl
  | @cons l l' ls ls' head tail ih =>
      cases tail with
      | nil => exact head.number_eq
      | @cons m m' ms ms' _ _ =>
          have hlength := head.length_le
          rcases Nat.lt_or_ge l.text.length p with hlt | hle
          · rw [numberAt_cons_of_lt (by simp) hlt, ← ih, ← shift_sub head,
              numberAt_cons_of_lt (by simp)]
            rw [shift_of_lt hlt]
            omega
          · rw [shift_of_le hle, numberAt_cons_of_le _ hle,
              numberAt_cons_of_le _ (Nat.le_trans hle hlength), head.number_eq]

theorem takeWhile_drop_take {t rest : Text} (ht : '\n' ∉ t) {start stop : Nat}
    (hstart : start ≤ t.length) :
    (((t ++ '\n' :: rest).take stop).drop start).takeWhile (· != '\n') =
      (t.take stop).drop start := by
  have hkeep : ∀ c ∈ (t.take stop).drop start, (c != '\n') = true := by
    intro c hc
    rw [bne_iff_ne]
    rintro rfl
    exact ht (List.mem_of_mem_take (List.mem_of_mem_drop hc))
  rw [List.take_append]
  rcases Nat.lt_or_ge stop start with hlt | hle
  · rw [show stop - t.length = 0 by omega, List.take_zero, List.append_nil]
    exact List.takeWhile_eq_self_iff.mpr hkeep
  · rw [List.drop_append_of_le_length (by rw [List.length_take]; omega),
      List.takeWhile_append_of_pos hkeep]
    cases stop - t.length <;> simp

theorem drop_take_of_lt {t rest : Text} {c : Char} {start stop : Nat} (h : t.length < start) :
    ((t ++ c :: rest).take stop).drop start =
      (rest.take (stop - (t.length + 1))).drop (start - (t.length + 1)) := by
  rw [List.drop_take, List.drop_take, List.drop_append, List.drop_eq_nil_of_le (Nat.le_of_lt h),
    List.nil_append, show start - t.length = (start - (t.length + 1)) + 1 by omega,
    List.drop_succ_cons]
  congr 1
  omega

theorem exists_lineRest_shift (h : List.Forall₂ Pads ls ls') (stop pos : Nat) :
    ∃ back, Blank back ∧ lineRest ⟨ls'⟩ (shift ls ls' stop) (shift ls ls' pos) =
      lineRest ⟨ls⟩ stop pos ++ back := by
  induction h generalizing stop pos with
  | nil => exact ⟨[], by simp [Blank], by simp [lineRest, slice, text]⟩
  | @cons l l' ls ls' head _ ih =>
      change ∃ back, Blank back ∧
        (((textOf (l' :: ls')).take _).drop _).takeWhile _ =
          (((textOf (l :: ls)).take stop).drop pos).takeWhile _ ++ back
      have hlength := head.length_le
      rw [textOf_cons, textOf_cons]
      rcases Nat.lt_or_ge l.text.length pos with hlt | hle
      · have hlt' : l'.text.length < shift (l :: ls) (l' :: ls') pos := by
          rw [shift_of_lt hlt]
          omega
        rw [drop_take_of_lt hlt, drop_take_of_lt hlt', shift_sub head, shift_sub head]
        exact ih _ _
      · obtain ⟨back, hback, hpiece⟩ := exists_drop_take head ls ls' pos stop
        refine ⟨back, hback, ?_⟩
        rw [takeWhile_drop_take head.newline_not_mem hle, ← hpiece,
          takeWhile_drop_take head.line]
        rw [shift_of_le hle]
        exact Nat.le_trans hle hlength

theorem shift_add_of_lineRest (h : List.Forall₂ Pads ls ls') {stop pos n : Nat}
    (hn : n ≤ (lineRest ⟨ls⟩ stop pos).length) :
    shift ls ls' (pos + n) = shift ls ls' pos + n := by
  have hrest : lineRest ⟨ls⟩ stop pos <+: (textOf ls).drop pos := by
    refine (List.takeWhile_prefix _).trans ?_
    rw [slice, List.drop_take]
    exact List.take_prefix _ _
  have hline : '\n' ∉ (lineRest ⟨ls⟩ stop pos).take n := by
    intro hmem
    simpa using List.mem_takeWhile_imp (List.mem_of_mem_take hmem)
  have hadd := (prefix_shift h hline ((List.take_prefix _ _).trans hrest)).1
  rwa [List.length_take_of_le hn] at hadd

theorem find?_shift (h : List.Forall₂ Pads ls ls') (hmark : u ∈ Directive.marks)
    (start stop : Nat) :
    find? u (slice ⟨ls'⟩ ⟨shift ls ls' start, shift ls ls' stop⟩) =
      (find? u (slice ⟨ls⟩ ⟨start, stop⟩)).map fun k =>
        shift ls ls' (start + k) - shift ls ls' start := by
  have hne := (Directive.mark_chars hmark).1
  cases hfind : find? u (slice ⟨ls⟩ ⟨start, stop⟩) with
  | none =>
      rw [find?_slice_eq_none_iff hne] at hfind
      rw [Option.map_none, find?_slice_eq_none_iff hne]
      intro q hq hreads'
      obtain ⟨p, rfl, hreads⟩ := (reads_shift_iff h hmark).mp hreads'
      exact hfind p ((shift_le_shift_iff h).mp hq) hreads
  | some k =>
      obtain ⟨hreads, hfirst⟩ := (find?_slice_eq_some_iff hne).mp hfind
      rw [Option.map_some, find?_slice_eq_some_iff hne, shift_add_sub h]
      refine ⟨(reads_shift_iff h hmark).mpr ⟨_, rfl, hreads⟩, fun q hq hlt hreads' => ?_⟩
      obtain ⟨p, rfl, hreads⟩ := (reads_shift_iff h hmark).mp hreads'
      refine hfirst p ((shift_le_shift_iff h).mp hq) ?_ hreads
      by_contra hge
      exact Nat.not_le.mpr hlt ((shift_le_shift_iff h).mpr (Nat.not_lt.mp hge))

theorem occurrences_shift (h : List.Forall₂ Pads ls ls') (hmark : u ∈ Directive.marks)
    (start stop : Nat) :
    occurrences u (slice ⟨ls'⟩ ⟨shift ls ls' start, shift ls ls' stop⟩) =
      (occurrences u (slice ⟨ls⟩ ⟨start, stop⟩)).map fun k =>
        shift ls ls' (start + k) - shift ls ls' start := by
  have hne := (Directive.mark_chars hmark).1
  have hsorted : ((occurrences u (slice ⟨ls⟩ ⟨start, stop⟩)).map fun k =>
      shift ls ls' (start + k) - shift ls ls' start).Pairwise (· < ·) := by
    rw [List.pairwise_map]
    refine (pairwise_occurrences _ _).imp fun {j k} hjk => ?_
    have hj := shift_add_sub h start j
    have hk := shift_add_sub h start k
    have := shift_lt_shift h (Nat.add_lt_add_left hjk start)
    omega
  refine List.Pairwise.eq_of_mem_iff (pairwise_occurrences _ _) hsorted fun q => ?_
  rw [mem_occurrences_slice hne, reads_shift_iff h hmark, List.mem_map]
  constructor
  · rintro ⟨p, hp, hreads⟩
    have hstart : start ≤ p := (shift_le_shift_iff h).mp (by omega)
    refine ⟨p - start, ?_, ?_⟩
    · rw [mem_occurrences_slice hne, Nat.add_sub_cancel' hstart]
      exact hreads
    · rw [Nat.add_sub_cancel' hstart, ← hp, Nat.add_sub_cancel_left]
  · rintro ⟨k, hk, rfl⟩
    exact ⟨start + k, shift_add_sub h start k, (mem_occurrences_slice hne).mp hk⟩

theorem block?_shift (h : List.Forall₂ Pads ls ls') (within : Span) (d : Directive) :
    block? ⟨ls'⟩ (within.map (shift ls ls')) d =
      (block? ⟨ls⟩ within d).map (Option.map (Span.map (shift ls ls'))) := by
  have hopening := find?_shift h d.opening_mem_marks within.start within.stop
  unfold block?
  rw [Span.map, hopening]
  cases hfind : find? d.opening (slice ⟨ls⟩ within) with
  | none => rfl
  | some pos =>
      have hne := (Directive.mark_chars d.opening_mem_marks).1
      have hreads := ((find?_slice_eq_some_iff hne).mp hfind).1
      have hstart : shift ls ls' within.start + (shift ls ls' (within.start + pos) -
          shift ls ls' within.start) + d.opening.length =
            shift ls ls' (within.start + pos + d.opening.length) := by
        rw [shift_add_sub h,
          (prefix_shift h (Directive.newline_not_mem d.opening_mem_marks) hreads.1).1]
      simp only [Option.map_some]
      rw [hstart, find?_shift h d.closing_mem_marks]
      cases find? d.closing
        (slice ⟨ls⟩ ⟨within.start + pos + d.opening.length, within.stop⟩) with
      | none => rfl
      | some len =>
          simp only [Option.map_some, Except.map, Span.map, shift_add_sub h]

theorem block_shift (h : List.Forall₂ Pads ls ls') (within : Span) (d : Directive) :
    block ⟨ls'⟩ (within.map (shift ls ls')) d =
      (block ⟨ls⟩ within d).map (Span.map (shift ls ls')) := by
  unfold block
  rw [block?_shift h]
  cases block? ⟨ls⟩ within d with
  | error f => rfl
  | ok body? => cases body? <;> rfl

theorem headAndCode_shift (h : List.Forall₂ Pads ls ls') :
    headAndCode ⟨ls'⟩ = (headAndCode ⟨ls⟩).map
      (Prod.map (Span.map (shift ls ls')) (Span.map (shift ls ls'))) := by
  have hall : all ⟨ls'⟩ = (all ⟨ls⟩).map (shift ls ls') := by
    change Span.mk 0 (textOf ls').length = ⟨shift ls ls' 0, shift ls ls' (textOf ls).length⟩
    rw [shift_zero, shift_length h]
  unfold headAndCode
  rw [hall, block_shift h, block_shift h]
  cases block ⟨ls⟩ (all ⟨ls⟩) .head with
  | error f => rfl
  | ok head => cases block ⟨ls⟩ (all ⟨ls⟩) .code <;> rfl

theorem locationStart?_append {rest back : Text} (h : Blank back) :
    locationStart? (rest ++ back) = locationStart? rest := by
  unfold locationStart?
  congr 1
  funext r
  have hmarker : r.marker ∉ back := h.not_mem (by cases r <;> decide)
  have hnone : back.idxOf? r.marker = none := List.idxOf?_eq_none_iff.mpr hmarker
  rw [idxOf?_append, hnone]
  simp

theorem takeWhile_append_blank {t back : Text} (h : ∀ c ∈ back.head?, isBlank c = true) :
    (t ++ back).takeWhile (fun c => !isBlank c) = t.takeWhile (fun c => !isBlank c) := by
  have hnil : back.takeWhile (fun c => !isBlank c) = [] := by
    cases back with
    | nil => rfl
    | cons c back => simp [h c rfl]
  rw [List.takeWhile_append, hnil, List.append_nil]
  split
  · rename_i hall
    exact (List.takeWhile_prefix _).eq_of_length hall |>.symm
  · rfl

def orgAt (src : Source) (stop pos : Nat) : Except Fault (OrgBlock Span) :=
  let after := pos + Directive.org.opening.length
  let rest := src.lineRest stop after
  match locationStart? rest with
  | none => .error (.missingOrgLocation (trim (Directive.org.opening ++ rest)))
  | some marker =>
      let location := (rest.drop marker).takeWhile (fun c => !isBlank c)
      let start := after + (marker + location.length)
      match find? Directive.org.closing (src.slice ⟨start, stop⟩) with
      | none => .error (.unclosedBlock .org)
      | some len => .ok ⟨location, src.lineOf pos, ⟨start, start + len⟩⟩

theorem orgBlock_eq_orgAt (src : Source) (code : Span) (pos : Nat) :
    src.orgBlock code pos = src.orgAt code.stop (code.start + pos) := by
  simp only [orgBlock, orgAt, Nat.add_assoc]
  rfl

theorem location_length_le {rest : Text} {marker : Nat} (h : locationStart? rest = some marker) :
    marker + ((rest.drop marker).takeWhile (fun c => !isBlank c)).length ≤ rest.length := by
  obtain ⟨r, hr⟩ := exists_marker_of_locationStart? h
  obtain ⟨hlt, -⟩ := List.getElem?_eq_some_iff.mp hr
  have hle := (List.takeWhile_prefix (l := rest.drop marker) fun c => !isBlank c).length_le
  rw [List.length_drop] at hle
  omega

theorem orgAt_shift (h : List.Forall₂ Pads ls ls') {stop pos : Nat}
    (hreads : Reads ⟨ls⟩ Directive.org.opening stop pos) :
    orgAt ⟨ls'⟩ (shift ls ls' stop) (shift ls ls' pos) =
      (orgAt ⟨ls⟩ stop pos).map (OrgBlock.map (Span.map (shift ls ls'))) := by
  have hafter := (prefix_shift h (Directive.newline_not_mem Directive.org.opening_mem_marks)
    hreads.1).1
  obtain ⟨back, hback, hrest⟩ :=
    exists_lineRest_shift h stop (pos + Directive.org.opening.length)
  unfold orgAt
  dsimp only
  rw [← hafter, hrest, locationStart?_append hback, ← List.append_assoc,
    trim_append_of_blank _ hback]
  cases hlocation : locationStart? (lineRest ⟨ls⟩ stop (pos + Directive.org.opening.length)) with
  | none => rfl
  | some marker =>
      have hlength := location_length_le hlocation
      have hadd := shift_add_of_lineRest h hlength
      have hmarker : marker ≤ (lineRest ⟨ls⟩ stop (pos + Directive.org.opening.length)).length :=
        Nat.le_trans (Nat.le_add_right _ _) hlength
      dsimp only
      rw [List.drop_append_of_le_length hmarker,
        takeWhile_append_blank fun c hc => hback c (List.mem_of_mem_head? hc), ← hadd,
        find?_shift h Directive.org.closing_mem_marks]
      generalize ((lineRest ⟨ls⟩ stop (pos + Directive.org.opening.length)).drop marker).takeWhile
        (fun c => !isBlank c) = location
      generalize pos + Directive.org.opening.length + (marker + location.length) = start
      cases find? Directive.org.closing (slice ⟨ls⟩ ⟨start, stop⟩) with
      | none => rfl
      | some len =>
          simp only [Option.map_some, Except.map, OrgBlock.map, Span.map, shift_add_sub h, lineOf,
            numberAt_shift h]

theorem codeBlocks_shift (h : List.Forall₂ Pads ls ls') (code : Span) :
    codeBlocks ⟨ls'⟩ (code.map (shift ls ls')) =
      (codeBlocks ⟨ls⟩ code).map (CodeBlocks.map (Span.map (shift ls ls'))) := by
  have hmark := Directive.org.opening_mem_marks
  have horgs : (occurrences Directive.org.opening (slice ⟨ls'⟩ (code.map (shift ls ls')))).mapM
      (orgBlock ⟨ls'⟩ (code.map (shift ls ls'))) =
        ((occurrences Directive.org.opening (slice ⟨ls⟩ code)).mapM (orgBlock ⟨ls⟩ code)).map
          (List.map (OrgBlock.map (Span.map (shift ls ls')))) := by
    rw [Span.map, occurrences_shift h hmark, List.mapM_map, ← mapM_map_right]
    refine mapM_congr fun pos hpos => ?_
    rw [Function.comp_apply, orgBlock_eq_orgAt, orgBlock_eq_orgAt, shift_add_sub h]
    exact orgAt_shift h ((mem_occurrences_slice (Directive.mark_chars hmark).1).mp hpos)
  unfold codeBlocks
  rw [block_shift h, block?_shift h, horgs]
  cases block ⟨ls⟩ code .main with
  | error f => rfl
  | ok main =>
      cases block? ⟨ls⟩ code .interrupt with
      | error f => rfl
      | ok interrupt =>
          cases (occurrences Directive.org.opening (slice ⟨ls⟩ code)).mapM (orgBlock ⟨ls⟩ code) <;>
            rfl

theorem bodies_shift (h : List.Forall₂ Pads ls ls') :
    bodies ⟨ls'⟩ = (bodies ⟨ls⟩).map (Span.map (shift ls ls')) := by
  unfold bodies
  rw [headAndCode_shift h]
  cases headAndCode ⟨ls⟩ with
  | error f => rfl
  | ok spans =>
      obtain ⟨head, code⟩ := spans
      simp only [Except.map, Prod.map]
      rw [codeBlocks_shift h]
      cases codeBlocks ⟨ls⟩ code with
      | error f => rfl
      | ok blocks => simp [Except.map, CodeBlocks.parts_map]

theorem program_of_pads (h : List.Forall₂ Pads ls ls') : program ⟨ls'⟩ = program ⟨ls⟩ := by
  have hlines : ∀ s : Span, linesIn ⟨ls'⟩ (s.map (shift ls ls')) = linesIn ⟨ls⟩ s :=
    fun s => piecesIn_shift h s.start s.stop
  unfold program
  rw [headAndCode_shift h]
  cases headAndCode ⟨ls⟩ with
  | error f => rfl
  | ok spans =>
      obtain ⟨head, code⟩ := spans
      simp only [Except.map, ok_bind, Prod.map]
      rw [codeBlocks_shift h]
      cases codeBlocks ⟨ls⟩ code with
      | error f => rfl
      | ok blocks =>
          simp [Except.map, CodeBlocks.map, OrgBlock.map, Function.comp_def, hlines]

end Source

end CrossAssembler
