import CrossAssembler.Proofs.Source.Indexed
import CrossAssembler.Proofs.Statement.Spelling

namespace CrossAssembler

open Outcome Text

namespace Halt

variable {α β γ : Type}

def carry (f : α → β) : Except Fault α → Except Halt β
  | .error e => .error (.fault e)
  | .ok a => .ok (f a)

theorem carry_ne_badSlice (f : α → β) (x : Except Fault α) : carry f x ≠ .error .badSlice := by
  cases x <;> simp [carry]

theorem carry_mapM {f : β → γ} {g : α → Except Fault β} (xs : List α) :
    xs.mapM (fun a => carry f (g a)) = carry (List.map f) (xs.mapM g) := by
  induction xs with
  | nil => rfl
  | cons a xs ih =>
      rw [List.mapM_cons, List.mapM_cons, ih]
      cases g a with
      | error e => rfl
      | ok b => cases xs.mapM g <;> rfl

end Halt

def Text.octetLocationStart? (rest : Text) : Option Nat :=
  [Radix.hex, Radix.bin, Radix.dec].findSome? fun r => findOctet? [r.marker] rest

namespace IndexedText

def bodyFrom (x : IndexedText) (d : Directive) (start stop : Nat) : Except Halt OctetSpan := do
  match findOctet? d.closing (← x.slice ⟨start, stop⟩) with
  | none => throw (.fault (.unclosedBlock d))
  | some len => return ⟨start, start + len⟩

def block? (x : IndexedText) (within : OctetSpan) (d : Directive) :
    Except Halt (Option OctetSpan) := do
  match findOctet? d.opening (← x.slice within) with
  | none => return none
  | some pos =>
      let body ← x.bodyFrom d (within.start + pos + octets d.opening) within.stop
      return some body

def block (x : IndexedText) (within : OctetSpan) (d : Directive) : Except Halt OctetSpan := do
  match ← x.block? within d with
  | none => throw (.fault (.missingBlock d))
  | some body => return body

def headAndCode (x : IndexedText) : Except Halt (OctetSpan × OctetSpan) := do
  let head ← x.block x.all .head
  let code ← x.block x.all .code
  return (head, code)

def orgBlock (x : IndexedText) (code : OctetSpan) (pos : Nat) :
    Except Halt (OrgBlock OctetSpan) := do
  let after := code.start + pos + octets Directive.org.opening
  let ahead ← x.slice ⟨after, code.stop⟩
  let lineStop := (findOctet? ['\n'] ahead).elim code.stop (after + ·)
  let rest ← x.slice ⟨after, lineStop⟩
  match octetLocationStart? rest with
  | none =>
      let declaration ← x.slice ⟨code.start + pos, lineStop⟩
      throw (.fault (.missingOrgLocation (trim declaration)))
  | some marker =>
      let tail ← rest.octetSlice ⟨marker, octets rest⟩
      let location := (words tail).head?.getD []
      let body ← x.bodyFrom .org (after + marker + octets location) code.stop
      return { location, line := x.lineOf (code.start + pos), body }

def codeBlocks (x : IndexedText) (code : OctetSpan) : Except Halt (CodeBlocks OctetSpan) := do
  let main ← x.block code .main
  let interrupt ← x.block? code .interrupt
  let orgs ← (matchesFrom Directive.org.opening 0 0 (← x.slice code)).mapM (x.orgBlock code)
  return { main, interrupt, orgs }

end IndexedText

namespace Text

variable {t : Text}

theorem getD_findOctet?_singleton (c : Char) (t : Text) :
    (findOctet? [c] t).getD (octets t) = octets (t.takeWhile (· != c)) := by
  induction t with
  | nil => rfl
  | cons d t ih =>
      by_cases h : c = d
      · simp [findOctet?, h]
      · have h' : d ≠ c := fun heq => h heq.symm
        simp only [findOctet?, List.isPrefixOf, beq_eq_false_iff_ne.mpr h, Bool.false_and,
          List.takeWhile_cons, bne_iff_ne, ne_eq, h', not_false_eq_true, if_true, octets_cons, ← ih]
        cases findOctet? [c] t <;> simp [Nat.add_comm]

theorem find?_singleton (c : Char) (t : Text) : find? [c] t = t.idxOf? c := by
  induction t with
  | nil => rfl
  | cons d t ih =>
      by_cases h : c = d
      · simp [find?, h, List.idxOf?_cons]
      · have h' : d ≠ c := fun heq => h heq.symm
        simp [find?, h, h', List.idxOf?_cons, ih]

theorem octetLocationStart?_eq (rest : Text) :
    octetLocationStart? rest = (Source.locationStart? rest).map rest.octetAt := by
  rw [octetLocationStart?, Source.locationStart?, List.map_findSome?]
  congr 1
  funext r
  rw [findOctet?_eq, find?_singleton]
  rfl

theorem head?_words {c : Char} (h : t.head? = some c) (hc : isBlank c = false) :
    (words t).head? = some (t.takeWhile fun c => !isBlank c) := by
  have hchars : ∀ d ∈ t.takeWhile (fun c => !isBlank c), isBlank d = false := by
    intro d hd
    simpa using List.mem_takeWhile_imp hd
  have hne : t.takeWhile (fun c => !isBlank c) ≠ [] := by
    obtain ⟨rest, rfl⟩ := List.head?_eq_some_iff.mp h
    simp [hc]
  have hsplit := List.takeWhile_append_dropWhile (p := fun c => !isBlank c) (l := t)
  have hword := words_eq_singleton hne hchars
  cases hrest : t.dropWhile (fun c => !isBlank c) with
  | nil =>
      rw [hrest, List.append_nil] at hsplit
      rw [hsplit] at hword
      rw [hword, hsplit]
      rfl
  | cons d rest =>
      have hd : isBlank d = true := by
        have := List.head?_dropWhile_not (fun c => !isBlank c) t
        rw [hrest] at this
        simpa using this
      rw [hrest] at hsplit
      have hwords := words_append_cons hd (t.takeWhile fun c => !isBlank c) rest
      rw [hsplit, hword] at hwords
      rw [hwords]
      rfl

theorem slice_drop_octets {n : Nat} (h : n ≤ t.length) :
    t.octetSlice ⟨t.octetAt n, octets t⟩ = .ok (t.drop n) := by
  rw [octetSlice_eq_ok_iff, ← octetAt_length, sliceOctets?_octetAt h, List.take_length]

end Text

namespace Source

variable {src : Source} {u : Text} {d : Directive} {start stop pos k : Nat}

theorem octetAt_slice (h : start + k ≤ stop) :
    src.text.octetAt start + octetAt (src.slice ⟨start, stop⟩) k = src.text.octetAt (start + k) := by
  rw [octetAt_add]
  simp only [slice, octetAt, List.drop_take, List.take_take, Nat.min_eq_left (Nat.le_sub_of_add_le' h)]

theorem Reads.octetAt_add (h : src.Reads u stop pos) :
    src.text.octetAt pos + octets u = src.text.octetAt (pos + u.length) :=
  (octetAt_add_of_isPrefix h.1).symm

theorem Reads.lt_length (h : src.Reads u stop pos) (hu : u ≠ []) : pos < src.text.length := by
  have hlength := h.1.length_le
  have hpos := List.length_pos_iff.mpr hu
  rw [List.length_drop] at hlength
  omega

theorem Reads.lineOf_indexed (h : src.Reads u stop pos) (hu : u ≠ []) :
    src.indexed.lineOf (src.text.octetAt pos) = src.lineOf pos :=
  lineOf_indexed_char (Nat.le_refl _) (octetAt_lt_octetAt (Nat.lt_succ_self pos) (h.lt_length hu))

theorem slice_indexed_of_isPrefix (h : u <+: src.text.drop pos) :
    src.indexed.slice ⟨src.text.octetAt pos, src.text.octetAt pos + octets u⟩ = .ok u := by
  obtain ⟨rest, hrest⟩ := h
  refine octetSlice_eq_ok_iff.mpr (sliceOctets?_eq_some_iff.mpr ⟨src.text.take pos, rest, ?_, rfl, ?_⟩)
  · rw [List.append_assoc, hrest, List.take_append_drop]
    rfl
  · rw [octets_append]
    rfl

def bodyFrom (src : Source) (d : Directive) (start stop : Nat) : Except Fault Span :=
  match find? d.closing (src.slice ⟨start, stop⟩) with
  | none => .error (.unclosedBlock d)
  | some len => .ok ⟨start, start + len⟩

theorem bodyFrom_indexed (h : start ≤ stop) :
    src.indexed.bodyFrom d (src.text.octetAt start) (src.text.octetAt stop) =
      Halt.carry src.octetSpan (src.bodyFrom d start stop) := by
  have hslice : src.indexed.slice ⟨src.text.octetAt start, src.text.octetAt stop⟩ =
      .ok (src.slice ⟨start, stop⟩) := slice_indexed (s := ⟨start, stop⟩) h
  rw [IndexedText.bodyFrom, hslice, ok_bind, findOctet?_eq, bodyFrom]
  cases hfind : find? d.closing (src.slice ⟨start, stop⟩) with
  | none => rfl
  | some len =>
      have hne := (Directive.mark_chars d.closing_mem_marks).1
      have hreads := ((find?_slice_eq_some_iff hne).mp hfind).1
      have hlen := hreads.2
      simp only [Option.map_some, octetAt_slice (show start + len ≤ stop by omega)]
      rfl

theorem block?_indexed {within : Span} (h : within.start ≤ within.stop) (d : Directive) :
    src.indexed.block? (src.octetSpan within) d =
      Halt.carry (Option.map src.octetSpan) (src.block? within d) := by
  have hblock : src.block? within d = match find? d.opening (src.slice within) with
      | none => .ok none
      | some pos =>
          (src.bodyFrom d (within.start + pos + d.opening.length) within.stop).map some := by
    rw [block?]
    cases find? d.opening (src.slice within) with
    | none => rfl
    | some pos =>
        dsimp only [bodyFrom]
        cases find? d.closing (src.slice ⟨within.start + pos + d.opening.length, within.stop⟩) <;>
          rfl
  rw [IndexedText.block?, slice_indexed h, ok_bind, findOctet?_eq, hblock]
  cases hfind : find? d.opening (src.slice within) with
  | none => rfl
  | some pos =>
      have hne := (Directive.mark_chars d.opening_mem_marks).1
      have hreads := ((find?_slice_eq_some_iff hne).mp hfind).1
      have hroom := hreads.2
      have hstart : (src.octetSpan within).start + octetAt (src.slice within) pos +
          octets d.opening = src.text.octetAt (within.start + pos + d.opening.length) := by
        rw [← hreads.octetAt_add]
        congr 1
        exact octetAt_slice (by omega)
      simp only [Option.map_some, hstart]
      rw [octetSpan, bodyFrom_indexed hroom]
      cases src.bodyFrom d (within.start + pos + d.opening.length) within.stop <;> rfl

theorem block_indexed {within : Span} (h : within.start ≤ within.stop) (d : Directive) :
    src.indexed.block (src.octetSpan within) d =
      Halt.carry src.octetSpan (src.block within d) := by
  rw [IndexedText.block, block?_indexed h, block]
  cases src.block? within d with
  | error f => rfl
  | ok body? => cases body? <;> rfl

theorem octetSpan_all (src : Source) : src.indexed.all = src.octetSpan src.all := by
  rw [octetSpan, all, octetAt_length]
  rfl

theorem headAndCode_indexed :
    src.indexed.headAndCode =
      Halt.carry (Prod.map src.octetSpan src.octetSpan) src.headAndCode := by
  have hle : src.all.start ≤ src.all.stop := Nat.zero_le _
  rw [IndexedText.headAndCode, octetSpan_all, block_indexed hle, block_indexed hle, headAndCode]
  cases src.block src.all .head with
  | error f => rfl
  | ok head => cases src.block src.all .code <;> rfl

theorem lineRest_length_le (h : start ≤ stop) :
    start + (src.lineRest stop start).length ≤ stop := by
  have hle := (List.takeWhile_prefix (l := src.slice ⟨start, stop⟩) (· != '\n')).length_le
  rw [slice, List.length_drop, List.length_take] at hle
  dsimp only at hle
  rw [lineRest, slice]
  dsimp only
  omega

theorem octetAt_lineRest (h : k ≤ (src.lineRest stop pos).length) :
    src.text.octetAt pos + octetAt (src.lineRest stop pos) k = src.text.octetAt (pos + k) := by
  obtain ⟨rest, hrest⟩ := src.lineRest_isPrefix stop pos
  rw [octetAt_add, ← hrest, octetAt.eq_1 (_ ++ _), List.take_append_of_le_length h]
  rfl

theorem lineStop_indexed (h : start ≤ stop) :
    (findOctet? ['\n'] (src.slice ⟨start, stop⟩)).elim (src.text.octetAt stop)
        (src.text.octetAt start + ·) =
      src.text.octetAt start + octets (src.lineRest stop start) := by
  rw [lineRest, ← getD_findOctet?_singleton]
  cases findOctet? ['\n'] (src.slice ⟨start, stop⟩) with
  | none => exact (octetAt_add_octets h).symm
  | some j => rfl

theorem slice_declaration_indexed (h : src.Reads Directive.org.opening stop pos) :
    src.indexed.slice ⟨src.text.octetAt pos,
        src.text.octetAt (pos + Directive.org.opening.length) +
          octets (src.lineRest stop (pos + Directive.org.opening.length))⟩ =
      .ok (Directive.org.opening ++ src.lineRest stop (pos + Directive.org.opening.length)) := by
  rw [← h.octetAt_add, Nat.add_assoc, ← octets_append, ← lineRest_of_reads h (by decide)]
  exact slice_indexed_of_isPrefix (src.lineRest_isPrefix stop pos)

theorem head?_words_location {rest : Text} {marker : Nat} (h : locationStart? rest = some marker) :
    (words (rest.drop marker)).head? =
      some ((rest.drop marker).takeWhile fun c => !isBlank c) := by
  obtain ⟨r, hr⟩ := exists_marker_of_locationStart? h
  rw [← List.head?_drop] at hr
  exact head?_words hr (by cases r <;> decide)

theorem orgAt_indexed {code : Span} (h : src.Reads Directive.org.opening code.stop pos)
    {offset : Nat} (hoffset : (src.octetSpan code).start + offset = src.text.octetAt pos) :
    src.indexed.orgBlock (src.octetSpan code) offset =
      Halt.carry (OrgBlock.map src.octetSpan) (src.orgAt code.stop pos) := by
  have hafter := h.octetAt_add
  have hdeclaration := slice_declaration_indexed h
  have hlineOf := h.lineOf_indexed (by decide)
  have hroom := h.2
  rw [orgAt]
  generalize pos + Directive.org.opening.length = after at *
  have hstop : (src.octetSpan code).stop = src.text.octetAt code.stop := rfl
  have hahead : src.indexed.slice ⟨src.text.octetAt after, src.text.octetAt code.stop⟩ =
      .ok (src.slice ⟨after, code.stop⟩) := slice_indexed (s := ⟨after, code.stop⟩) hroom
  have hrest := slice_indexed_of_isPrefix (src.lineRest_isPrefix code.stop after)
  have hfits := src.lineRest_length_le hroom
  simp only [IndexedText.orgBlock, hoffset, hafter, hstop, hahead, ok_bind,
    lineStop_indexed hroom, hrest, octetLocationStart?_eq]
  cases hlocation : locationStart? (src.lineRest code.stop after) with
  | none =>
      simp only [Option.map_none, hdeclaration, ok_bind]
      rfl
  | some marker =>
      have hlength := location_length_le hlocation
      have htail := slice_drop_octets (t := src.lineRest code.stop after) (n := marker) (by omega)
      have htoken := octetAt_add_of_isPrefix (List.takeWhile_prefix
        (l := (src.lineRest code.stop after).drop marker) fun c => !isBlank c)
      simp only [Option.map_some, htail, ok_bind, head?_words_location hlocation, Option.getD_some]
      generalize ((src.lineRest code.stop after).drop marker).takeWhile (fun c => !isBlank c) =
        location at *
      -- marker and location lie on the line, so offsets in its rest are offsets in the text
      have hstart : src.text.octetAt after + octetAt (src.lineRest code.stop after) marker +
          octets location = src.text.octetAt (after + (marker + location.length)) := by
        rw [Nat.add_assoc, ← htoken, octetAt_lineRest hlength]
      rw [hstart, bodyFrom_indexed (by omega), hlineOf, bodyFrom]
      cases find? Directive.org.closing
        (src.slice ⟨after + (marker + location.length), code.stop⟩) <;> rfl

theorem codeBlocks_indexed {code : Span} (h : code.start ≤ code.stop) :
    src.indexed.codeBlocks (src.octetSpan code) =
      Halt.carry (CodeBlocks.map src.octetSpan) (src.codeBlocks code) := by
  have hmark := Directive.org.opening_mem_marks
  obtain ⟨cs, hcs, hdot⟩ := Directive.exists_dot hmark
  have hmatches : matchesFrom Directive.org.opening 0 0 (src.slice code) =
      (occurrences Directive.org.opening (src.slice code)).map (octetAt (src.slice code)) := by
    rw [hcs, matchesFrom_eq hdot (by simp)]
    simp only [Nat.zero_add]
  have horgs : (matchesFrom Directive.org.opening 0 0 (src.slice code)).mapM
      (src.indexed.orgBlock (src.octetSpan code)) =
      Halt.carry (List.map (OrgBlock.map src.octetSpan))
        ((occurrences Directive.org.opening (src.slice code)).mapM (src.orgBlock code)) := by
    rw [hmatches, List.mapM_map, ← Halt.carry_mapM]
    refine mapM_congr fun k hk => ?_
    have hreads := (mem_occurrences_slice (Directive.mark_chars hmark).1).mp hk
    have hroom := hreads.2
    rw [Function.comp_apply, orgBlock_eq_orgAt]
    exact orgAt_indexed hreads (octetAt_slice (by omega))
  rw [IndexedText.codeBlocks, block_indexed h, block?_indexed h, slice_indexed h, codeBlocks]
  cases src.block code .main with
  | error f => rfl
  | ok main =>
      cases src.block? code .interrupt with
      | error f => rfl
      | ok interrupt =>
          simp only [Halt.carry, ok_bind, horgs]
          cases (occurrences Directive.org.opening (src.slice code)).mapM (src.orgBlock code) <;> rfl

end Source

end CrossAssembler
