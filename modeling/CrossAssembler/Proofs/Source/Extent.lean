import CrossAssembler.Proofs.Outcome
import CrossAssembler.Proofs.Source.Blocks
import CrossAssembler.Proofs.Source.Position
import Mathlib.Data.List.TakeWhile

namespace CrossAssembler

open Outcome Text

namespace Span

def Meets (s t : Span) : Prop :=
  ∃ pos, s.start ≤ pos ∧ pos < s.stop ∧ t.start ≤ pos ∧ pos < t.stop

theorem meets_iff {s t : Span} : s.Meets t ↔ max s.start t.start < min s.stop t.stop := by
  constructor
  · rintro ⟨pos, hs, hs', ht, ht'⟩
    omega
  · intro h
    exact ⟨max s.start t.start, by omega, by omega, by omega, by omega⟩

instance (s t : Span) : Decidable (s.Meets t) :=
  decidable_of_iff _ meets_iff.symm

end Span

namespace CodeBlocks

variable {α β : Type}

def parts (b : CodeBlocks β) : List (SectionKind × β) :=
  (.main, b.main) :: (b.interrupt.toList.map (.interrupt, ·) ++
    b.orgs.map fun org => (.org org.location, org.body))

theorem parts_map (f : α → β) (b : CodeBlocks α) :
    (b.map f).parts = b.parts.map (Prod.map id f) := by
  obtain ⟨main, interrupt, orgs⟩ := b
  cases interrupt <;> simp [parts, CodeBlocks.map, OrgBlock.map]

end CodeBlocks

def Source.bodies (src : Source) : List Span :=
  match src.headAndCode with
  | .error _ => []
  | .ok (head, code) =>
      match src.codeBlocks code with
      | .error _ => []
      | .ok blocks => head :: blocks.parts.map (·.2)

theorem Directive.tight_of_mem_marks {mark : Text} (h : mark ∈ marks) : Tight mark := by
  obtain ⟨hne, hchars⟩ := mark_chars h
  exact .of_not_isBlank hne fun c hc => (hchars c hc).1

theorem Directive.newline_not_mem {mark : Text} (h : mark ∈ marks) : '\n' ∉ mark := by
  intro hmem
  exact absurd ((mark_chars h).2 _ hmem).1 (by decide)

namespace Source

variable {src : Source} {d d' : Directive} {stop : Nat} {s s' : Span}

theorem Reads.getElem? {u : Text} {pos k : Nat} (h : src.Reads u stop pos) (hk : k < u.length) :
    src.text[pos + k]? = u[k]? := by
  obtain ⟨rest, hrest⟩ := h.1
  rw [← List.getElem?_drop, ← hrest, List.getElem?_append_left hk]

theorem Reads.add_length_le {mark mark' : Text} {stop' pos pos' : Nat}
    (hmark : mark ∈ Directive.marks) (hmark' : mark' ∈ Directive.marks)
    (h : src.Reads mark stop pos) (h' : src.Reads mark' stop' pos') (hlt : pos < pos') :
    pos + mark.length ≤ pos' := by
  by_contra hin
  obtain ⟨cs, rfl, hdot⟩ := Directive.exists_dot hmark
  obtain ⟨cs', rfl, -⟩ := Directive.exists_dot hmark'
  obtain ⟨k, rfl⟩ : ∃ k, pos' = pos + (k + 1) := ⟨pos' - pos - 1, by omega⟩
  have hhere := h.getElem? (k := k + 1) (by omega)
  have hthere := h'.getElem? (k := 0) (by simp)
  rw [Nat.add_zero, hhere, List.getElem?_cons_succ, List.getElem?_cons_zero] at hthere
  exact hdot (List.mem_of_getElem? hthere)

theorem Reads.mark_eq {mark mark' : Text} {stop' pos : Nat} (hmark : mark ∈ Directive.marks)
    (hmark' : mark' ∈ Directive.marks) (h : src.Reads mark stop pos)
    (h' : src.Reads mark' stop' pos) : mark = mark' := by
  by_contra hne
  rcases List.prefix_or_prefix_of_prefix h.1 h'.1 with hpre | hpre
  · exact Directive.mark_incomparable mark hmark mark' hmark' hne hpre
  · exact Directive.mark_incomparable mark' hmark' mark hmark (Ne.symm hne) hpre

structure Encloses (src : Source) (d : Directive) (stop : Nat) (body : Span) : Prop where
  start_le : body.start ≤ body.stop
  closed : src.Reads d.closing stop body.stop
  first : ∀ pos, body.start ≤ pos → pos < body.stop → ¬src.Reads d.closing stop pos

theorem bodies_eq {head code : Span} {blocks : CodeBlocks Span}
    (hhead : src.headAndCode = .ok (head, code)) (hcode : src.codeBlocks code = .ok blocks) :
    src.bodies = head :: blocks.parts.map (·.2) := by
  simp only [bodies, hhead, hcode]

theorem encloses_of_find? {start len : Nat}
    (h : find? d.closing (src.slice ⟨start, stop⟩) = some len) :
    src.Encloses d stop ⟨start, start + len⟩ := by
  have hne := (Directive.mark_chars d.closing_mem_marks).1
  obtain ⟨hclosed, hfirst⟩ := (find?_slice_eq_some_iff hne).mp h
  exact ⟨Nat.le_add_right _ _, hclosed, hfirst⟩

theorem encloses_of_block? {within : Span} (h : src.block? within d = .ok (some s)) :
    src.Encloses d within.stop s := by
  unfold block? at h
  split at h
  · simp at h
  · dsimp only at h
    split at h
    · simp at h
    · rename_i hlen
      obtain rfl := Option.some.inj (Except.ok.inj h)
      exact encloses_of_find? hlen

theorem block?_of_block {within : Span} (h : src.block within d = .ok s) :
    src.block? within d = .ok (some s) := by
  simp only [block, bind_eq_ok] at h
  obtain ⟨body?, hbody, h⟩ := h
  cases body? with
  | none => simp at h
  | some body => rw [hbody, pure_eq_ok.mp h]

theorem encloses_of_block {within : Span} (h : src.block within d = .ok s) :
    src.Encloses d within.stop s :=
  encloses_of_block? (block?_of_block h)

theorem Encloses.holds_closing (h : src.Encloses d stop s) (h' : src.Encloses d' stop s')
    (hd : d ≠ d') (hmeet : s.Meets s') :
    (s.start ≤ s'.stop ∧ s'.stop + d'.closing.length ≤ s.stop) ∨
      (s'.start ≤ s.stop ∧ s.stop + d.closing.length ≤ s'.stop) := by
  obtain ⟨pos, hs, hs', ht, ht'⟩ := hmeet
  rcases Nat.lt_trichotomy s'.stop s.stop with hlt | heq | hlt
  · exact .inl ⟨by omega,
      h'.closed.add_length_le d'.closing_mem_marks d.closing_mem_marks h.closed hlt⟩
  · have hclosed := h'.closed
    rw [heq] at hclosed
    have := h.closed.mark_eq d.closing_mem_marks d'.closing_mem_marks hclosed
    exact absurd (Directive.closing_inj this) hd
  · exact .inr ⟨by omega,
      h.closed.add_length_le d.closing_mem_marks d'.closing_mem_marks h'.closed hlt⟩

theorem Encloses.stop_eq (h : src.Encloses d stop s) (h' : src.Encloses d stop s')
    (hle : s.start ≤ s'.start) (hin : s'.start ≤ s.stop) : s'.stop = s.stop := by
  rcases Nat.lt_trichotomy s'.stop s.stop with hlt | heq | hlt
  · exact absurd h'.closed (h.first _ (Nat.le_trans hle h'.start_le) hlt)
  · exact heq
  · exact absurd h.closed (h'.first _ hin hlt)

def lineRest (src : Source) (stop pos : Nat) : Text :=
  (src.slice ⟨pos, stop⟩).takeWhile (· != '\n')

theorem lineRest_isPrefix (src : Source) (stop pos : Nat) :
    src.lineRest stop pos <+: src.text.drop pos := by
  refine (List.takeWhile_prefix _).trans ?_
  rw [slice, List.drop_take]
  exact List.take_prefix _ _

structure OrgReads (src : Source) (stop pos : Nat) (b : OrgBlock Span) : Prop where
  opened : src.Reads Directive.org.opening stop pos
  line : b.line = src.lineOf pos
  located : ∃ k, locationStart? (src.lineRest stop (pos + Directive.org.opening.length)) = some k ∧
    b.location = ((src.lineRest stop (pos + Directive.org.opening.length)).drop k).takeWhile
      (fun c => !isBlank c) ∧
    b.body.start = pos + Directive.org.opening.length + k + b.location.length
  encloses : src.Encloses .org stop b.body

theorem orgReads_of_orgBlock {code : Span} {pos : Nat} {b : OrgBlock Span}
    (hpos : pos ∈ occurrences Directive.org.opening (src.slice code))
    (h : src.orgBlock code pos = .ok b) : src.OrgReads code.stop (code.start + pos) b := by
  have hne := (Directive.mark_chars Directive.org.opening_mem_marks).1
  have hopened := (mem_occurrences_slice hne).mp hpos
  unfold orgBlock at h
  dsimp only at h
  split at h
  · simp at h
  · rename_i k hk
    split at h
    · simp at h
    · rename_i len hlen
      obtain rfl := Except.ok.inj h
      exact ⟨hopened, rfl, ⟨k, hk, rfl, rfl⟩, encloses_of_find? hlen⟩

theorem drop_takeWhile {p : Char → Bool} {t : Text} {n : Nat} (h : n ≤ (t.takeWhile p).length) :
    (t.takeWhile p).drop n = (t.drop n).takeWhile p := by
  induction n generalizing t with
  | zero => rfl
  | succ n ih =>
      cases t with
      | nil => simp
      | cons c t =>
          cases hc : p c with
          | false => simp [hc] at h
          | true =>
              simp only [List.takeWhile_cons, hc, if_true, List.length_cons] at h ⊢
              exact ih (by omega)

theorem slice_drop (src : Source) (pos n stop : Nat) :
    (src.slice ⟨pos, stop⟩).drop n = src.slice ⟨pos + n, stop⟩ := by
  simp only [slice, List.drop_drop]

theorem lineRest_drop {pos n : Nat} (hn : n ≤ (src.lineRest stop pos).length) :
    (src.lineRest stop pos).drop n = src.lineRest stop (pos + n) := by
  rw [lineRest, lineRest, ← slice_drop]
  exact drop_takeWhile hn

theorem lineRest_of_reads {u : Text} {pos : Nat} (h : src.Reads u stop pos) (hline : '\n' ∉ u) :
    src.lineRest stop pos = u ++ src.lineRest stop (pos + u.length) := by
  obtain ⟨rest, hrest⟩ := h.1
  have hslice : src.slice ⟨pos, stop⟩ = u ++ src.slice ⟨pos + u.length, stop⟩ := by
    have hu : u <+: src.slice ⟨pos, stop⟩ := by
      rw [slice, List.drop_take, List.prefix_take_iff]
      exact ⟨h.1, by have := h.2; dsimp only; omega⟩
    obtain ⟨more, hmore⟩ := hu
    rw [← slice_drop, ← hmore, List.drop_left]
  have hkeep : ∀ c ∈ u, (c != '\n') = true := by
    intro c hc
    rw [bne_iff_ne]
    rintro rfl
    exact hline hc
  rw [lineRest, hslice, List.takeWhile_append_of_pos hkeep]
  rfl

theorem idxOf?_append (front back : Text) (c : Char) :
    (front ++ back).idxOf? c =
      (front.idxOf? c).or ((back.idxOf? c).map (· + front.length)) :=
  List.findIdx?_append

theorem findSome?_idxOf?_append {rs : List Radix} (front : Text) {back : Text} {k : Nat}
    (h : rs.findSome? (fun r => (front ++ back).idxOf? r.marker) = some (k + front.length)) :
    rs.findSome? (fun r => back.idxOf? r.marker) = some k := by
  induction rs with
  | nil => simp at h
  | cons r rs ih =>
      rw [List.findSome?_cons] at h ⊢
      have happend := idxOf?_append front back r.marker
      cases hfront : front.idxOf? r.marker with
      | some i =>
          have hlt : i < front.length := (List.findIdx?_eq_some_iff_getElem.mp hfront).1
          simp only [happend, hfront, Option.some_or, Option.some.injEq] at h
          omega
      | none =>
          cases hback : back.idxOf? r.marker with
          | some i => simpa [happend, hfront, hback] using h
          | none =>
              simp only [happend, hfront, hback, Option.map_none, Option.or_none] at h
              exact ih h

theorem exists_marker_of_locationStart? {rest : Text} {k : Nat} (h : locationStart? rest = some k) :
    ∃ r : Radix, rest[k]? = some r.marker := by
  obtain ⟨r, -, hr⟩ := List.exists_of_findSome?_eq_some h
  obtain ⟨hlt, heq, -⟩ := List.findIdx?_eq_some_iff_getElem.mp hr
  exact ⟨r, by rw [List.getElem?_eq_getElem hlt, beq_iff_eq.mp heq]⟩

theorem marker_not_mem_org (r : Radix) : r.marker ∉ Directive.org.opening := by
  cases r <;> decide

theorem OrgReads.start_eq {pos pos' : Nat} {b b' : OrgBlock Span} (h : src.OrgReads stop pos b)
    (h' : src.OrgReads stop pos' b') (hlt : pos < pos') (hin : pos' < b.body.start)
    (hdot : '.' ∉ b.location) : b'.location = b.location ∧ b'.body.start = b.body.start := by
  obtain ⟨k, hk, hlocation, hstart⟩ := h.located
  obtain ⟨k', hk', hlocation', hstart'⟩ := h'.located
  have hafter := h.opened.add_length_le Directive.org.opening_mem_marks
    Directive.org.opening_mem_marks h'.opened hlt
  obtain ⟨m, rfl⟩ := Nat.exists_eq_add_of_le hafter
  obtain ⟨r, hr⟩ := exists_marker_of_locationStart? hk
  have hprefix : b.location <+:
      (src.lineRest stop (pos + Directive.org.opening.length)).drop k :=
    hlocation ▸ List.takeWhile_prefix _
  have hlength := hprefix.length_le
  rw [List.length_drop] at hlength
  obtain ⟨hkin, -⟩ := List.getElem?_eq_some_iff.mp hr
  have hrest : (src.lineRest stop (pos + Directive.org.opening.length)).drop m =
      src.lineRest stop (pos + Directive.org.opening.length + m) := lineRest_drop (by omega)
  rw [lineRest_of_reads h'.opened (by decide)] at hrest
  generalize src.lineRest stop (pos + Directive.org.opening.length) = rest at *
  generalize src.lineRest stop (pos + Directive.org.opening.length + m +
    Directive.org.opening.length) = rest' at *
  have hchars : ∀ i < Directive.org.opening.length,
      rest[m + i]? = Directive.org.opening[i]? := by
    intro i hi
    rw [← List.getElem?_drop, hrest, List.getElem?_append_left hi]
  have hbeyond : m + Directive.org.opening.length ≤ k := by
    rcases Nat.lt_or_ge m k with hmk | hmk
    · by_contra hnear
      have := hchars (k - m) (by omega)
      rw [Nat.add_sub_cancel' (Nat.le_of_lt hmk), hr] at this
      exact marker_not_mem_org r (List.mem_of_getElem? this.symm)
    · obtain ⟨tail, htail⟩ := hprefix
      have hget : b.location[m - k]? = some '.' := by
        have hleft : (b.location ++ tail)[m - k]? = b.location[m - k]? :=
          List.getElem?_append_left (by omega)
        rw [← hleft, htail, List.getElem?_drop, Nat.add_sub_cancel' hmk]
        exact hchars 0 (by decide)
      exact absurd (List.mem_of_getElem? hget) hdot
  have hdrop : rest.drop (m + Directive.org.opening.length) = rest' := by
    rw [← List.drop_drop, hrest, List.drop_left]
  have hsame : k' + (m + Directive.org.opening.length) = k := by
    have hfront : (rest.take (m + Directive.org.opening.length)).length =
        m + Directive.org.opening.length := by
      rw [List.length_take]
      omega
    have hsplit : rest = rest.take (m + Directive.org.opening.length) ++ rest' := by
      rw [← hdrop, List.take_append_drop]
    have hfound : locationStart? rest' = some (k - (m + Directive.org.opening.length)) := by
      apply findSome?_idxOf?_append (rest.take (m + Directive.org.opening.length))
      rw [← hsplit, hfront, Nat.sub_add_cancel hbeyond]
      exact hk
    have := Option.some.inj (hk'.symm.trans hfound)
    omega
  have hsameLocation : b'.location = b.location := by
    rw [hlocation, hlocation', ← hdrop, List.drop_drop, Nat.add_comm _ k', hsame]
  refine ⟨hsameLocation, ?_⟩
  rw [hstart, hstart', hsameLocation]
  omega

theorem OrgReads.head?_location {pos : Nat} {b : OrgBlock Span}
    (h : src.OrgReads stop pos b) :
    ∃ r : Radix, b.location.head? = some r.marker := by
  obtain ⟨k, hk, hlocation, -⟩ := h.located
  obtain ⟨r, hr⟩ := exists_marker_of_locationStart? hk
  obtain ⟨hlt, hget⟩ := List.getElem?_eq_some_iff.mp hr
  have hsolid : isBlank r.marker = false := by cases r <;> decide
  refine ⟨r, ?_⟩
  rw [hlocation, List.drop_eq_getElem_cons hlt, hget, List.takeWhile_cons]
  simp [hsolid]

theorem OrgReads.not_isBlank {pos : Nat} {b : OrgBlock Span} (h : src.OrgReads stop pos b) :
    ∀ c ∈ b.location, isBlank c = false := by
  obtain ⟨k, -, hlocation, -⟩ := h.located
  intro c hc
  rw [hlocation] at hc
  simpa using List.mem_takeWhile_imp hc

theorem OrgReads.exists_gap {pos : Nat} {b : OrgBlock Span} (h : src.OrgReads stop pos b) :
    ∃ gap, Tight (Directive.org.opening ++ gap ++ b.location) ∧
      '\n' ∉ Directive.org.opening ++ gap ++ b.location ∧
      Directive.org.opening ++ gap ++ b.location <+: src.text.drop pos ∧
      pos + (Directive.org.opening ++ gap ++ b.location).length = b.body.start ∧
      ∃ r : Radix, r.marker ∈ b.location := by
  obtain ⟨r, hmarker⟩ := h.head?_location
  have hmarker := List.mem_of_head? hmarker
  have hchars := h.not_isBlank
  obtain ⟨k, hk, hlocation, hstart⟩ := h.located
  have hopening := lineRest_of_reads h.opened (by decide)
  obtain ⟨_, hget⟩ := exists_marker_of_locationStart? hk
  obtain ⟨hkin, -⟩ := List.getElem?_eq_some_iff.mp hget
  have hrest : '\n' ∉ src.lineRest stop (pos + Directive.org.opening.length) := by
    intro hmem
    simpa using List.mem_takeWhile_imp hmem
  have hline := src.lineRest_isPrefix stop pos
  rw [hopening] at hline
  generalize src.lineRest stop (pos + Directive.org.opening.length) = rest at *
  have hwhole : rest.take k ++ b.location <+: rest := by
    obtain ⟨tail, htail⟩ := List.takeWhile_prefix (l := rest.drop k) (p := fun c => !isBlank c)
    refine ⟨tail, ?_⟩
    rw [List.append_assoc, hlocation, htail, List.take_append_drop]
  have hopen := Directive.tight_of_mem_marks Directive.org.opening_mem_marks
  refine ⟨rest.take k, hopen.append (.of_not_isBlank (List.ne_nil_of_mem hmarker) hchars) _,
    ?_, ?_, ?_, r, hmarker⟩
  · rw [List.append_assoc, List.mem_append]
    rintro (hmem | hmem)
    · exact absurd hmem (by decide)
    · exact hrest (hwhole.subset hmem)
  · rw [List.append_assoc]
    exact ((List.prefix_append_right_inj _).mpr hwhole).trans hline
  · rw [hstart, List.length_append, List.length_append, List.length_take]
    omega

theorem forall₂_orgReads {code : Span} {orgs : List (OrgBlock Span)}
    (h : (occurrences Directive.org.opening (src.slice code)).mapM (src.orgBlock code) = .ok orgs) :
    List.Forall₂ (fun pos b => src.OrgReads code.stop (code.start + pos) b)
      (occurrences Directive.org.opening (src.slice code)) orgs := by
  refine ((List.forall₂_and_left _ _).mpr ⟨fun pos hpos => hpos, mapM_eq_ok.mp h⟩).imp ?_
  rintro pos b ⟨hpos, hb⟩
  exact orgReads_of_orgBlock hpos hb

end Source

end CrossAssembler
