import CrossAssembler.Proofs.Assembly.Renumbering
import CrossAssembler.Proofs.Source.Padding
import CrossAssembler.Proofs.Statement.Spelling

namespace CrossAssembler

open Outcome Text

def Radix.rank : Radix → Nat
  | .hex => 0
  | .bin => 1
  | .dec => 2

namespace Source

variable {R : Nat → Nat → Prop} {front back statement : Text} {c : Char} {p : Nat}
  {first second joined : SourceLine} {ls ls' : List SourceLine}

structure Joins (R : Nat → Nat → Prop) (front : Text) (c : Char) (first second joined : SourceLine) :
    Prop where
  padded : ∃ back, Blank back ∧ first.text = front ++ back
  blank : isBlank c = true
  text : joined.text = first.text ++ c :: second.text
  first : R first.number joined.number
  second : R second.number joined.number

inductive Joined (R : Nat → Nat → Prop) (front : Text) (c : Char) (statement : Text) :
    Nat → List SourceLine → List SourceLine → Prop
  | here {first second joined : SourceLine} {ls ls' : List SourceLine}
      (joins : Joins R front c first second joined) (holds : second.text = statement)
      (after : List.Forall₂ (SourceLine.Alike R) ls ls') :
      Joined R front c statement front.length (first :: second :: ls) (joined :: ls')
  | there {l l' : SourceLine} {p : Nat} {ls ls' : List SourceLine} (head : SourceLine.Alike R l l')
      (tail : Joined R front c statement p ls ls') :
      Joined R front c statement (l.text.length + 1 + p) (l :: ls) (l' :: ls')

theorem drop_take_append (s t : Text) (start stop : Nat) :
    ((s ++ t).take stop).drop start =
      (s.take stop).drop start ++ (t.take (stop - s.length)).drop (start - s.length) := by
  rw [List.take_append, List.drop_append, List.length_take]
  rcases Nat.lt_or_ge stop s.length with hlt | hle
  · rw [show stop - s.length = 0 by omega, List.take_zero, List.drop_nil, List.drop_nil]
  · rw [Nat.min_eq_right hle]

theorem blank_drop_take (hback : Blank back) {start : Nat} (h : front.length ≤ start) (stop : Nat) :
    Blank (((front ++ back).take stop).drop start) := by
  rw [drop_take_append, List.drop_eq_nil_of_le (by rw [List.length_take]; omega), List.nil_append]
  intro d hd
  exact hback d (List.mem_of_mem_take (List.mem_of_mem_drop hd))

theorem piecesIn_cons_of_le {l : SourceLine} {start stop : Nat} (h : stop ≤ l.text.length) :
    piecesIn (l :: ls) start stop =
      if (trim ((l.text.take stop).drop start)).isEmpty then []
      else [⟨l.number, trim ((l.text.take stop).drop start)⟩] := by
  rw [piecesIn, show stop - (l.text.length + 1) = 0 by omega, piecesIn_zero]

namespace Joins

variable (h : Joins R front c first second joined)

include h

theorem length_text : joined.text.length = first.text.length + 1 + second.text.length := by
  rw [h.text, List.length_append, List.length_cons]
  omega

theorem numberAt_alike (after : List.Forall₂ (SourceLine.Alike R) ls ls') (pos : Nat) :
    R (numberAt (first :: second :: ls) pos) (numberAt (joined :: ls') pos) := by
  have hlength := h.length_text
  rcases Nat.lt_or_ge first.text.length pos with hlt | hle
  · rw [numberAt_cons_of_lt (by simp) hlt]
    rcases Nat.lt_or_ge second.text.length (pos - (first.text.length + 1)) with hlt' | hle'
    · cases after with
      | nil => exact h.second
      | @cons l l' ls ls' next rest =>
          have hstep : numberAt (second :: l :: ls) (pos - (first.text.length + 1)) =
              numberAt (l :: ls) (pos - (joined.text.length + 1)) := by
            rw [numberAt_cons_of_lt (by simp) hlt', hlength]
            congr 1
            omega
          have hstep' : numberAt (joined :: l' :: ls') pos =
              numberAt (l' :: ls') (pos - (joined.text.length + 1)) :=
            numberAt_cons_of_lt (by simp) (by omega)
          rw [hstep, hstep']
          exact Source.numberAt_alike (.cons next rest) (by simp) _
    · rw [numberAt_cons_of_le _ hle', numberAt_cons_of_le _ (by omega)]
      exact h.second
  · rw [numberAt_cons_of_le _ hle, numberAt_cons_of_le _ (by omega)]
    exact h.first

theorem trim_first {start : Nat} (hstart : front.length ≤ start) (stop : Nat) :
    trim ((first.text.take stop).drop start) = [] := by
  obtain ⟨back, hback, htext⟩ := h.padded
  rw [htext]
  exact (blank_drop_take hback hstart stop).trim_eq

theorem trim_joined {start : Nat} (hstart : front.length ≤ start) (stop : Nat) :
    trim ((joined.text.take stop).drop start) =
      trim ((second.text.take (stop - (first.text.length + 1))).drop
        (start - (first.text.length + 1))) := by
  obtain ⟨back, hback, htext⟩ := h.padded
  have hsplit : joined.text = (front ++ (back ++ [c])) ++ second.text := by
    rw [h.text, htext]
    simp
  have hlength : (front ++ (back ++ [c])).length = first.text.length + 1 := by
    rw [htext]
    simp
    omega
  have hblank : Blank (back ++ [c]) := hback.append (by simpa [Blank] using h.blank)
  rw [hsplit, drop_take_append, hlength]
  exact trim_of_blank_append (blank_drop_take hblank hstart stop) _

theorem piecesIn_alike (after : List.Forall₂ (SourceLine.Alike R) ls ls') {start stop : Nat}
    (houtside : front.length ≤ start ∨ stop ≤ front.length) :
    List.Forall₂ (SourceLine.Alike R) (piecesIn (first :: second :: ls) start stop)
      (piecesIn (joined :: ls') start stop) := by
  have hlength : ∀ k : Nat, k - (first.text.length + 1) - (second.text.length + 1) =
      k - (joined.text.length + 1) := by
    intro k
    rw [h.length_text]
    omega
  have hrest := Source.piecesIn_alike after (start - (joined.text.length + 1))
    (stop - (joined.text.length + 1))
  rcases houtside with hstart | hstop
  · -- what is left of the first line is blank
    simp only [piecesIn, h.trim_first hstart, h.trim_joined hstart, hlength, List.isEmpty_nil,
      if_true]
    split
    · exact hrest
    · exact .cons ⟨h.second, rfl⟩ hrest
  · -- nothing of the second line is in the span
    obtain ⟨back, -, htext⟩ := h.padded
    have hfits : stop ≤ first.text.length := by
      rw [htext, List.length_append]
      omega
    have hfits' : stop ≤ joined.text.length := by
      rw [h.length_text]
      omega
    have htake : joined.text.take stop = first.text.take stop := by
      rw [h.text, List.take_append_of_le_length hfits]
    rw [piecesIn_cons_of_le hfits, piecesIn_cons_of_le hfits', htake]
    split
    · exact .nil
    · exact .cons ⟨h.first, rfl⟩ .nil

end Joins

namespace Joined

theorem append {before before' : List SourceLine}
    (hbefore : List.Forall₂ (SourceLine.Alike R) before before')
    (h : Joined R front c statement p ls ls') :
    Joined R front c statement ((textOf before).length + p) (before ++ ls) (before' ++ ls') := by
  induction hbefore with
  | nil => simpa using h
  | @cons l l' before before' head _ ih =>
      rw [length_textOf_cons, Nat.add_assoc]
      exact .there head ih

theorem exists_text (h : Joined R front c statement p ls ls') :
    ∃ before back after, Blank back ∧ isBlank c = true ∧ p = (before ++ front).length ∧
      textOf ls = before ++ front ++ back ++ '\n' :: (statement ++ '\n' :: after) ∧
      textOf ls' = before ++ front ++ back ++ c :: (statement ++ '\n' :: after) := by
  induction h with
  | @here first second joined ls ls' joins holds after =>
      obtain ⟨back, hback, htext⟩ := joins.padded
      refine ⟨[], back, textOf ls, hback, joins.blank, rfl, ?_, ?_⟩
      · simp [htext, holds]
      · simp [joins.text, htext, holds, textOf_eq after]
  | @there l l' p ls ls' head _ ih =>
      obtain ⟨before, back, after, hback, hc, rfl, htext, htext'⟩ := ih
      refine ⟨l.text ++ '\n' :: before, back, after, hback, hc, ?_, ?_, ?_⟩
      · simp
        omega
      · simp [htext]
      · simp [htext', head.text]

theorem numberAt_alike (h : Joined R front c statement p ls ls') (pos : Nat) :
    R (numberAt ls pos) (numberAt ls' pos) := by
  induction h generalizing pos with
  | here joins _ after => exact joins.numberAt_alike after pos
  | @there l l' p ls ls' head tail ih =>
      have hne : ls ≠ [] := by cases tail <;> simp
      have hne' : ls' ≠ [] := by cases tail <;> simp
      rcases Nat.lt_or_ge l.text.length pos with hlt | hle
      · rw [numberAt_cons_of_lt hne hlt, numberAt_cons_of_lt hne' (head.text ▸ hlt), head.text]
        exact ih _
      · rw [numberAt_cons_of_le _ hle, numberAt_cons_of_le _ (head.text ▸ hle)]
        exact head.number

theorem piecesIn_alike (h : Joined R front c statement p ls ls') {start stop : Nat}
    (houtside : p ≤ start ∨ stop ≤ p) :
    List.Forall₂ (SourceLine.Alike R) (piecesIn ls start stop) (piecesIn ls' start stop) := by
  induction h generalizing start stop with
  | here joins _ after => exact joins.piecesIn_alike after houtside
  | @there l l' p ls ls' head _ ih =>
      rw [piecesIn, piecesIn, head.text]
      have hrest : p ≤ start - (l'.text.length + 1) ∨ stop - (l'.text.length + 1) ≤ p := by
        rw [head.text] at houtside
        omega
      split
      · exact ih hrest
      · exact .cons ⟨head.number, rfl⟩ (ih hrest)

theorem reads_iff (h : Joined R front c statement p ls ls') {u : Text} (hmark : u ∈ Directive.marks)
    {stop pos : Nat} : Reads ⟨ls⟩ u stop pos ↔ Reads ⟨ls'⟩ u stop pos := by
  obtain ⟨before, back, after, -, hc, -, htext, htext'⟩ := h.exists_text
  have hline := Directive.newline_not_mem hmark
  have hblank : c ∉ u := fun hmem => by
    simp [((Directive.mark_chars hmark).2 c hmem).1] at hc
  refine and_congr_left fun _ => ?_
  change u <+: (textOf ls).drop pos ↔ u <+: (textOf ls').drop pos
  rw [htext, htext']
  exact ⟨fun hpre => prefix_drop_exchange hline hpre c, fun hpre => prefix_drop_exchange hblank hpre _⟩

theorem find?_eq (h : Joined R front c statement p ls ls') {u : Text} (hmark : u ∈ Directive.marks)
    (span : Span) : find? u (slice ⟨ls⟩ span) = find? u (slice ⟨ls'⟩ span) := by
  obtain ⟨start, stop⟩ := span
  have hne := (Directive.mark_chars hmark).1
  refine Option.ext fun k => ?_
  simp only [find?_slice_eq_some_iff hne, h.reads_iff hmark]

theorem occurrences_eq (h : Joined R front c statement p ls ls') {u : Text}
    (hmark : u ∈ Directive.marks) (span : Span) :
    occurrences u (slice ⟨ls⟩ span) = occurrences u (slice ⟨ls'⟩ span) := by
  obtain ⟨start, stop⟩ := span
  have hne := (Directive.mark_chars hmark).1
  refine List.Pairwise.eq_of_mem_iff (pairwise_occurrences _ _) (pairwise_occurrences _ _) fun k => ?_
  rw [mem_occurrences_slice hne, mem_occurrences_slice hne, h.reads_iff hmark]

theorem block?_eq (h : Joined R front c statement p ls ls') : block? ⟨ls⟩ = block? ⟨ls'⟩ := by
  funext within d
  simp only [block?, h.find?_eq d.opening_mem_marks, h.find?_eq d.closing_mem_marks]

theorem block_eq (h : Joined R front c statement p ls ls') : block ⟨ls⟩ = block ⟨ls'⟩ := by
  funext within d
  rw [block, block, h.block?_eq]

theorem headAndCode_eq (h : Joined R front c statement p ls ls') :
    headAndCode ⟨ls⟩ = headAndCode ⟨ls'⟩ := by
  obtain ⟨before, back, after, -, -, -, htext, htext'⟩ := h.exists_text
  have hall : all ⟨ls⟩ = all ⟨ls'⟩ := by
    change Span.mk 0 (textOf ls).length = ⟨0, (textOf ls').length⟩
    simp [htext, htext']
  rw [headAndCode, headAndCode, h.block_eq, hall]

end Joined

structure SameLocation (rest rest' : Text) : Prop where
  start : locationStart? rest' = locationStart? rest
  location : ∀ k, locationStart? rest = some k →
    (rest'.drop k).takeWhile (fun d => !isBlank d) = (rest.drop k).takeWhile (fun d => !isBlank d)
  missing : locationStart? rest = none → rest' = rest

theorem SameLocation.refl (rest : Text) : SameLocation rest rest :=
  ⟨rfl, fun _ _ => rfl, fun _ => rfl⟩

theorem exists_locationStart? {rest : Text} {r : Radix} (hr : r.marker ∈ rest) :
    ∃ k, locationStart? rest = some k := by
  refine Option.isSome_iff_exists.mp (List.findSome?_isSome_iff.mpr ⟨r, ?_, ?_⟩)
  · cases r <;> simp
  · exact List.isSome_idxOf?.mpr hr

theorem locationStart?_append_of_mem {rest more : Text} {r : Radix} (hr : r.marker ∈ rest)
    (hmore : ∀ r' : Radix, r'.rank < r.rank → r'.marker ∉ more) :
    locationStart? (rest ++ more) = locationStart? rest := by
  have hbefore : ∀ r' : Radix, r'.rank < r.rank →
      (rest ++ more).idxOf? r'.marker = rest.idxOf? r'.marker := by
    intro r' hr'
    have hnone : more.idxOf? r'.marker = none := List.idxOf?_eq_none_iff.mpr (hmore r' hr')
    rw [idxOf?_append, hnone]
    simp
  obtain ⟨k, hk⟩ := Option.isSome_iff_exists.mp (List.isSome_idxOf?.mpr hr)
  have hhere : (rest ++ more).idxOf? r.marker = some k := by
    rw [idxOf?_append, hk]
    rfl
  cases r with
  | hex => simp only [locationStart?, List.findSome?_cons, hk, hhere]
  | bin => simp only [locationStart?, List.findSome?_cons, hk, hhere, hbefore .hex (by decide)]
  | dec =>
      simp only [locationStart?, List.findSome?_cons, hk, hhere, hbefore .hex (by decide),
        hbefore .bin (by decide)]

theorem SameLocation.append {rest more : Text} {r : Radix} (hr : r.marker ∈ rest)
    (hc : isBlank c = true) (hmore : ∀ r' : Radix, r'.rank < r.rank → r'.marker ∉ more) :
    SameLocation rest (rest ++ c :: more) := by
  have hmore' : ∀ r' : Radix, r'.rank < r.rank → r'.marker ∉ c :: more := by
    intro r' hr' hmem
    rcases List.mem_cons.mp hmem with rfl | hmem
    · cases r' <;> simp [Radix.marker, isBlank] at hc
    · exact hmore r' hr' hmem
  refine ⟨locationStart?_append_of_mem hr hmore', fun k hk => ?_, fun hnone => ?_⟩
  · have hle := location_length_le hk
    rw [List.drop_append_of_le_length (by omega), takeWhile_append_blank (by simpa using hc)]
  · obtain ⟨k, hk⟩ := exists_locationStart? hr
    simp [hk] at hnone

theorem takeWhile_exchange {s t : Text} (hc : c ≠ '\n') (start stop : Nat) :
    (((s ++ c :: t).take stop).drop start).takeWhile (· != '\n') =
        (((s ++ '\n' :: t).take stop).drop start).takeWhile (· != '\n') ∨
      start ≤ s.length ∧
        (((s ++ '\n' :: t).take stop).drop start).takeWhile (· != '\n') = s.drop start ∧
        (((s ++ c :: t).take stop).drop start).takeWhile (· != '\n') =
          s.drop start ++ c :: (t.take (stop - (s.length + 1))).takeWhile (· != '\n') := by
  rcases Nat.lt_or_ge s.length start with hlt | hle
  · left
    rw [drop_take_of_lt hlt, drop_take_of_lt hlt]
  · rcases Nat.lt_or_ge s.length stop with hlt | hge
    · have hslice : ∀ d : Char, ((s ++ d :: t).take stop).drop start =
          s.drop start ++ d :: t.take (stop - (s.length + 1)) := by
        intro d
        rw [List.take_append, List.take_of_length_le (Nat.le_of_lt hlt),
          List.drop_append_of_le_length hle,
          show stop - s.length = (stop - (s.length + 1)) + 1 by omega, List.take_succ_cons]
      rw [hslice, hslice, List.takeWhile_append, List.takeWhile_append]
      split
      · right
        simp [hle, hc]
      · left
        rfl
    · left
      rw [List.take_append_of_le_length hge, List.take_append_of_le_length hge]

theorem mem_of_mem_takeWhile {s t : Text} {d : Char} {stop : Nat} (hs : '\n' ∉ s)
    (h : d ∈ ((s ++ '\n' :: t).take stop).takeWhile (· != '\n')) : d ∈ s := by
  have htake : (((s ++ '\n' :: t).take stop).drop 0).takeWhile (· != '\n') = (s.take stop).drop 0 :=
    takeWhile_drop_take hs (Nat.zero_le _)
  rw [List.drop_zero, List.drop_zero] at htake
  rw [htake] at h
  exact List.mem_of_mem_take h

theorem opening_before_marker {x digits after : Text} {r : Radix} {pos : Nat} (hdot : '.' ∉ digits)
    (hback : Blank back)
    (hpre : Directive.org.opening <+: (x ++ r.marker :: (digits ++ back ++ after)).drop pos)
    (hend : pos + Directive.org.opening.length ≤ x.length + (1 + (digits ++ back).length)) :
    pos + Directive.org.opening.length ≤ x.length := by
  rcases prefix_drop_append_cons (marker_not_mem_org r) hpre with ⟨hle, -⟩ | ⟨hlt, hpre⟩
  · exact hle
  · -- a directive behind the marker would start with a dot in the digits or the blanks
    exfalso
    have hget : (digits ++ back ++ after)[pos - (x.length + 1)]? = some '.' := by
      obtain ⟨tail, htail⟩ := hpre
      rw [← List.head?_drop, ← htail]
      rfl
    have hpos : 0 < Directive.org.opening.length := by decide
    rw [List.getElem?_append_left (by omega)] at hget
    rcases List.mem_append.mp (List.mem_of_getElem? hget) with hmem | hmem
    · exact hdot hmem
    · exact absurd (hback _ hmem) (by decide)

namespace Joined

variable {lead location : Text} {l : Literal}
  (h : Joined R (lead ++ location) c statement p ls ls') (hline : '\n' ∉ c :: statement)
  (hlocation : Literal.parse? location = some l)
  (hmarkers : ∀ r : Radix, r.rank < l.radix.rank → r.marker ∉ statement)

include h hline hlocation hmarkers

theorem sameLocation {stop pos : Nat}
    (hreads : Reads ⟨ls⟩ Directive.org.opening stop pos) :
    SameLocation (lineRest ⟨ls⟩ stop (pos + Directive.org.opening.length))
      (lineRest ⟨ls'⟩ stop (pos + Directive.org.opening.length)) := by
  obtain ⟨before, back, after, hback, hc, -, htext, htext'⟩ := h.exists_text
  obtain ⟨hne, hstatement⟩ := List.ne_and_not_mem_of_not_mem_cons hline
  change SameLocation
    ((((textOf ls).take stop).drop (pos + Directive.org.opening.length)).takeWhile (· != '\n'))
    ((((textOf ls').take stop).drop (pos + Directive.org.opening.length)).takeWhile (· != '\n'))
  rw [htext, htext']
  rcases takeWhile_exchange (s := before ++ (lead ++ location) ++ back)
    (t := statement ++ '\n' :: after) (Ne.symm hne) (pos + Directive.org.opening.length) stop with
    hsame | ⟨hend, hrest, hrest'⟩
  · rw [hsame]
    exact .refl _
  · obtain ⟨digits, rfl, -⟩ := Literal.exists_of_parse? hlocation
    have hdot := Literal.dot_not_mem_of_parse? hlocation
    have hregroup : ∀ z, before ++ (lead ++ l.radix.marker :: digits) ++ back ++ z =
        (before ++ lead) ++ l.radix.marker :: (digits ++ back ++ z) := by simp
    have hpre : Directive.org.opening <+: (textOf ls).drop pos := hreads.1
    rw [htext, hregroup] at hpre
    have hbefore : pos + Directive.org.opening.length ≤ (before ++ lead).length :=
      opening_before_marker (fun hmem => hdot (List.mem_cons_of_mem _ hmem)) hback hpre
        (by simp at hend ⊢; omega)
    rw [hrest, hrest']
    refine .append (r := l.radix) ?_ hc ?_
    · have hsplit := hregroup []
      simp only [List.append_nil] at hsplit
      rw [hsplit, List.drop_append_of_le_length hbefore]
      exact List.mem_append_right _ List.mem_cons_self
    · intro r hr hmem
      exact hmarkers r hr (mem_of_mem_takeWhile hstatement hmem)

theorem orgAt_alike {stop pos : Nat}
    (hreads : Reads ⟨ls⟩ Directive.org.opening stop pos) :
    Alike Eq (OrgBlock.Alike R Eq) (orgAt ⟨ls⟩ stop pos) (orgAt ⟨ls'⟩ stop pos) := by
  have hsame := h.sameLocation hline hlocation hmarkers hreads
  unfold orgAt
  dsimp only
  rw [hsame.start]
  cases hstart : locationStart? (lineRest ⟨ls⟩ stop (pos + Directive.org.opening.length)) with
  | none =>
      dsimp only
      rw [hsame.missing hstart]
      exact .error rfl
  | some k =>
      dsimp only
      rw [hsame.location k hstart, ← h.find?_eq Directive.org.closing_mem_marks]
      split
      · exact .error rfl
      · exact .ok ⟨rfl, h.numberAt_alike pos, rfl⟩

theorem codeBlocks_alike (code : Span) :
    Alike Eq (CodeBlocks.Alike R Eq) (codeBlocks ⟨ls⟩ code) (codeBlocks ⟨ls'⟩ code) := by
  refine codeBlocks_alike_of h.block_eq h.block?_eq (h.occurrences_eq (by decide) code) ?_
  intro pos hpos
  rw [orgBlock_eq_orgAt, orgBlock_eq_orgAt]
  have hne := (Directive.mark_chars Directive.org.opening_mem_marks).1
  exact h.orgAt_alike hline hlocation hmarkers ((mem_occurrences_slice hne).mp hpos)

theorem program_alike
    (houtside : ∀ body ∈ bodies ⟨ls⟩, p ≤ body.start ∨ body.stop ≤ p) :
    Alike Eq (fun x y => List.Forall₂ (SourceLine.Alike R) x.1 y.1 ∧
      CodeBlocks.Alike R (List.Forall₂ (SourceLine.Alike R)) x.2 y.2)
        (program ⟨ls⟩) (program ⟨ls'⟩) :=
  program_alike_of h.headAndCode_eq (h.codeBlocks_alike hline hlocation hmarkers) fun body hbody =>
    h.piecesIn_alike (houtside body hbody)

end Joined

end Source

end CrossAssembler
