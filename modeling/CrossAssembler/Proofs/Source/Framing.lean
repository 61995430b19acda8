import CrossAssembler.Proofs.Source.IndexedBlocks

namespace CrossAssembler

open Outcome Text

namespace IndexedText

structure Framed (x : IndexedText) (within : OctetSpan) (ahead closing : Text) (s : OctetSpan) :
    Prop where
  start_le : s.start ≤ s.stop
  stop_le : s.stop ≤ octets x.text
  opened_within : within.start + octets ahead ≤ s.start
  closed_within : s.stop + octets closing ≤ within.stop
  preceded : x.slice ⟨s.start - octets ahead, s.start⟩ = .ok ahead
  followed : x.slice ⟨s.stop, s.stop + octets closing⟩ = .ok closing
  unclosed : ∃ body, x.slice s = .ok body ∧ ¬closing <:+: body

structure OrgFramed (x : IndexedText) (code : OctetSpan) (pos : Nat) (b : OrgBlock OctetSpan) :
    Prop where
  framed : x.Framed code b.location Directive.org.closing b.body
  line_eq : b.line = x.lineOf pos
  marked : ∃ r : Radix, b.location.head? = some r.marker
  solid : ∀ c ∈ b.location, isBlank c = false
  declared : ∃ gap, '\n' ∉ gap ∧
    x.slice ⟨pos, b.body.start⟩ = .ok (Directive.org.opening ++ gap ++ b.location)

structure BlocksFramed (x : IndexedText) (code : OctetSpan) (b : CodeBlocks OctetSpan) : Prop where
  main : x.Framed code Directive.main.opening Directive.main.closing b.main
  interrupt : ∀ s ∈ b.interrupt,
    x.Framed code Directive.interrupt.opening Directive.interrupt.closing s
  orgs : ∃ starts : List Nat, starts.Pairwise (· < ·) ∧
    (∀ pos, pos ∈ starts ↔ code.start ≤ pos ∧ pos + octets Directive.org.opening ≤ code.stop ∧
      x.slice ⟨pos, pos + octets Directive.org.opening⟩ = .ok Directive.org.opening) ∧
    List.Forall₂ (x.OrgFramed code) starts b.orgs

end IndexedText

namespace Source

variable {src : Source} {d : Directive} {stop pos : Nat}

theorem exists_opening_of_block? {within s : Span} (h : src.block? within d = .ok (some s)) :
    ∃ pos, within.start ≤ pos ∧ pos + d.opening.length = s.start ∧
      d.opening <+: src.text.drop pos := by
  have hne := (Directive.mark_chars d.opening_mem_marks).1
  unfold block? at h
  split at h
  · simp at h
  · rename_i pos hpos
    dsimp only at h
    split at h
    · simp at h
    · obtain rfl := Option.some.inj (Except.ok.inj h)
      exact ⟨within.start + pos, Nat.le_add_right _ _, rfl,
        ((find?_slice_eq_some_iff hne).mp hpos).1.1⟩

theorem Encloses.not_isInfix {s : Span} (h : src.Encloses d stop s) :
    ¬d.closing <:+: src.slice s := by
  rintro ⟨front, back, hbody⟩
  have hne := (Directive.mark_chars d.closing_mem_marks).1
  have hpre : d.closing <+: (src.slice s).drop front.length := by
    rw [← hbody, List.append_assoc, List.drop_left]
    exact List.prefix_append _ _
  have hreads := (prefix_drop_slice hne).mp hpre
  have hlength := List.length_pos_iff.mpr hne
  have hroom := hreads.2
  have hclosed := h.closed.2
  exact h.first (s.start + front.length) (Nat.le_add_right _ _) (by omega)
    ⟨hreads.1, by omega⟩

theorem Encloses.framed {within s : Span} {ahead : Text} (h : src.Encloses d within.stop s)
    (hpos : within.start ≤ pos) (hstart : pos + ahead.length = s.start)
    (hahead : ahead <+: src.text.drop pos) :
    src.indexed.Framed (src.octetSpan within) ahead d.closing (src.octetSpan s) := by
  have hopened : src.text.octetAt s.start = src.text.octetAt pos + octets ahead := by
    rw [← hstart, octetAt_add_of_isPrefix hahead]
  have hstarts := src.text.octetAt_le_octetAt hpos
  refine ⟨octetAt_le_octetAt _ h.start_le, octetAt_le_octets _ _, ?_, ?_, ?_,
    slice_indexed_of_isPrefix h.closed.1, src.slice s, slice_indexed h.start_le, h.not_isInfix⟩
  · rw [octetSpan, octetSpan, hopened]
    exact Nat.add_le_add_right hstarts _
  · rw [octetSpan, octetSpan, h.closed.octetAt_add]
    exact octetAt_le_octetAt _ h.closed.2
  · rw [octetSpan, hopened, Nat.add_sub_cancel]
    exact slice_indexed_of_isPrefix hahead

theorem framed_of_block? {within s : Span} (h : src.block? within d = .ok (some s)) :
    src.indexed.Framed (src.octetSpan within) d.opening d.closing (src.octetSpan s) := by
  obtain ⟨pos, hpos, hstart, hopening⟩ := exists_opening_of_block? h
  exact (encloses_of_block? h).framed hpos hstart hopening

theorem framed_of_block {within s : Span} (h : src.block within d = .ok s) :
    src.indexed.Framed (src.octetSpan within) d.opening d.closing (src.octetSpan s) :=
  framed_of_block? (block?_of_block h)

theorem OrgReads.orgFramed {code : Span} {b : OrgBlock Span} (h : src.OrgReads code.stop pos b)
    (hpos : code.start ≤ pos) :
    src.indexed.OrgFramed (src.octetSpan code) (src.text.octetAt pos) (b.map src.octetSpan) := by
  obtain ⟨gap, -, hline, hdeclared, hstart, -⟩ := h.exists_gap
  have hbody : src.text.octetAt b.body.start = src.text.octetAt pos +
      octets (Directive.org.opening ++ gap ++ b.location) := by
    rw [← hstart, octetAt_add_of_isPrefix hdeclared]
  have hlocation : b.location <+:
      src.text.drop (pos + (Directive.org.opening ++ gap).length) := by
    obtain ⟨rest, hrest⟩ := hdeclared
    rw [← List.drop_drop, ← hrest, List.append_assoc, List.drop_left]
    exact List.prefix_append _ _
  have hahead : pos + (Directive.org.opening ++ gap).length + b.location.length =
      b.body.start := by
    rw [← hstart, Nat.add_assoc, ← List.length_append]
  refine ⟨h.encloses.framed (Nat.le_trans hpos (Nat.le_add_right _ _)) hahead hlocation, ?_,
    h.head?_location, h.not_isBlank, gap, fun hmem => hline (by simp [hmem]), ?_⟩
  · exact h.line.trans (h.opened.lineOf_indexed (by decide)).symm
  · exact (congrArg (fun n => src.indexed.slice ⟨src.text.octetAt pos, n⟩) hbody).trans
      (slice_indexed_of_isPrefix hdeclared)

theorem exists_reads_of_slice {code : Span} {u : Text} {offset : Nat} (hu : u ≠ [])
    (hstart : (src.octetSpan code).start ≤ offset)
    (hstop : offset + octets u ≤ (src.octetSpan code).stop)
    (h : src.indexed.slice ⟨offset, offset + octets u⟩ = .ok u) :
    ∃ pos, code.start ≤ pos ∧ src.Reads u code.stop pos ∧ src.text.octetAt pos = offset := by
  obtain ⟨before, after, htext, rfl, -⟩ :=
    sliceOctets?_eq_some_iff.mp (octetSlice_eq_ok_iff.mp h)
  have htext : src.text = before ++ u ++ after := htext
  -- a slice that is not refused starts between two characters
  have hhere : src.text.octetAt before.length = octets before := by
    rw [htext, List.append_assoc, octetAt_append]
  have hpre : u <+: src.text.drop before.length := by
    rw [htext, List.append_assoc, List.drop_left]
    exact List.prefix_append _ _
  have hlength : before.length + u.length ≤ src.text.length := by
    simp [htext]
  have hpos := List.length_pos_iff.mpr hu
  refine ⟨before.length, ?_, ⟨hpre, ?_⟩, hhere⟩
  · by_contra hlt
    have := octetAt_lt_octetAt (t := src.text) (Nat.not_le.mp hlt) (by omega)
    rw [hhere] at this
    exact absurd hstart (Nat.not_le.mpr this)
  · rw [← octetAt_le_iff hlength, octetAt_add_of_isPrefix hpre, hhere]
    exact hstop

theorem orgs_framed {code : Span} {orgs : List (OrgBlock Span)}
    (h : (occurrences Directive.org.opening (src.slice code)).mapM (src.orgBlock code) =
      .ok orgs) :
    ∃ starts : List Nat, starts.Pairwise (· < ·) ∧
      (∀ pos, pos ∈ starts ↔ (src.octetSpan code).start ≤ pos ∧
        pos + octets Directive.org.opening ≤ (src.octetSpan code).stop ∧
        src.indexed.slice ⟨pos, pos + octets Directive.org.opening⟩ =
          .ok Directive.org.opening) ∧
      List.Forall₂ (src.indexed.OrgFramed (src.octetSpan code)) starts
        (orgs.map (·.map src.octetSpan)) := by
  have hne := (Directive.mark_chars Directive.org.opening_mem_marks).1
  have hreads : ∀ k ∈ occurrences Directive.org.opening (src.slice code),
      src.Reads Directive.org.opening code.stop (code.start + k) :=
    fun k hk => (mem_occurrences_slice hne).mp hk
  refine ⟨(occurrences Directive.org.opening (src.slice code)).map
    (fun k => src.text.octetAt (code.start + k)), ?_, fun pos => ⟨fun hmem => ?_, ?_⟩, ?_⟩
  · rw [List.pairwise_map]
    refine (pairwise_occurrences _ _).imp_of_mem fun {j k} hj _ hlt => ?_
    exact octetAt_lt_octetAt (by omega) ((hreads j hj).lt_length hne)
  · obtain ⟨k, hk, rfl⟩ := List.mem_map.mp hmem
    have hk := hreads k hk
    refine ⟨octetAt_le_octetAt _ (Nat.le_add_right _ _), ?_, slice_indexed_of_isPrefix hk.1⟩
    rw [hk.octetAt_add]
    exact octetAt_le_octetAt _ hk.2
  · -- the search by characters misses no directive that a slice shows
    rintro ⟨hstart, hstop, hslice⟩
    obtain ⟨pos, hpos, hopening, rfl⟩ := exists_reads_of_slice hne hstart hstop hslice
    refine List.mem_map.mpr ⟨pos - code.start, (mem_occurrences_slice hne).mpr ?_, ?_⟩
    · rwa [Nat.add_sub_cancel' hpos]
    · rw [Nat.add_sub_cancel' hpos]
  · rw [List.forall₂_map_left_iff, List.forall₂_map_right_iff]
    exact (forall₂_orgReads h).imp fun _ _ horg => horg.orgFramed (Nat.le_add_right _ _)

theorem framed_of_headAndCode {head code : Span} (h : src.headAndCode = .ok (head, code)) :
    (head.start ≤ head.stop ∧ code.start ≤ code.stop) ∧
      src.indexed.Framed src.indexed.all Directive.head.opening Directive.head.closing
        (src.octetSpan head) ∧
      src.indexed.Framed src.indexed.all Directive.code.opening Directive.code.closing
        (src.octetSpan code) := by
  simp only [headAndCode, bind_eq_ok] at h
  obtain ⟨head, hhead, code, hcode, h⟩ := h
  obtain ⟨rfl, rfl⟩ := Prod.mk.inj (pure_eq_ok.mp h)
  rw [octetSpan_all]
  exact ⟨⟨(encloses_of_block hhead).start_le, (encloses_of_block hcode).start_le⟩,
    framed_of_block hhead, framed_of_block hcode⟩

theorem blocksFramed_of_codeBlocks {code : Span} {blocks : CodeBlocks Span}
    (h : src.codeBlocks code = .ok blocks) :
    src.indexed.BlocksFramed (src.octetSpan code) (blocks.map src.octetSpan) := by
  simp only [codeBlocks, bind_eq_ok] at h
  obtain ⟨main, hmain, interrupt, hinterrupt, orgs, horgs, h⟩ := h
  obtain rfl := pure_eq_ok.mp h
  refine ⟨framed_of_block hmain, fun s hs => ?_, orgs_framed horgs⟩
  obtain ⟨body, rfl, rfl⟩ := Option.map_eq_some_iff.mp hs
  exact framed_of_block? hinterrupt

theorem split_framed (raw : Text) :
    let src := normalize raw
    let x := IndexedText.normalize raw
    x.headAndCode = Halt.carry (Prod.map src.octetSpan src.octetSpan) src.headAndCode ∧
      x.headAndCode ≠ .error .badSlice ∧
      (∀ head code, src.headAndCode = .ok (head, code) →
        (head.start ≤ head.stop ∧ code.start ≤ code.stop) ∧
          x.Framed x.all Directive.head.opening Directive.head.closing (src.octetSpan head) ∧
          x.Framed x.all Directive.code.opening Directive.code.closing (src.octetSpan code)) ∧
      ∀ code : Span, code.start ≤ code.stop →
        (∀ d, x.block? (src.octetSpan code) d =
            Halt.carry (Option.map src.octetSpan) (src.block? code d) ∧
          x.block? (src.octetSpan code) d ≠ .error .badSlice ∧
          ∀ body, src.block? code d = .ok (some body) →
            x.Framed (src.octetSpan code) d.opening d.closing (src.octetSpan body)) ∧
        x.codeBlocks (src.octetSpan code) =
          Halt.carry (CodeBlocks.map src.octetSpan) (src.codeBlocks code) ∧
        x.codeBlocks (src.octetSpan code) ≠ .error .badSlice ∧
        ∀ blocks, src.codeBlocks code = .ok blocks →
          x.BlocksFramed (src.octetSpan code) (blocks.map src.octetSpan) := by
  rw [normalize_indexed]
  intro src x
  refine ⟨headAndCode_indexed, ?_, fun head code h => framed_of_headAndCode h,
    fun code hle => ⟨fun d => ⟨block?_indexed hle d, ?_, fun body h => framed_of_block? h⟩,
      codeBlocks_indexed hle, ?_, fun blocks h => blocksFramed_of_codeBlocks h⟩⟩
  · rw [headAndCode_indexed]
    exact Halt.carry_ne_badSlice _ _
  · rw [block?_indexed hle]
    exact Halt.carry_ne_badSlice _ _
  · rw [codeBlocks_indexed hle]
    exact Halt.carry_ne_badSlice _ _

def accentedSource : Text :=
  (".head // ¬\n é = $10\n.endhead\n.code .main\n straße: nop\n.endmain\n" ++
    ".org é ¬11 nop .endorg\n.org .org $é .endorg\n.endcode\n").toList

theorem split_framed_accentedSource :
    (IndexedText.normalize accentedSource).headAndCode = .ok (⟨5, 16⟩, ⟨30, 106⟩) ∧
      (IndexedText.normalize accentedSource).Framed ⟨0, 115⟩ ".CODE".toList ".ENDCODE".toList
        ⟨30, 106⟩ ∧
      (IndexedText.normalize accentedSource).BlocksFramed ⟨30, 106⟩
        { main := ⟨36, 50⟩
          interrupt := none
          orgs := [⟨"¬11".toList, 7, ⟨71, 76⟩⟩, ⟨"$É".toList, 8, ⟨97, 98⟩⟩,
            ⟨"$É".toList, 8, ⟨97, 98⟩⟩] } := by
  have hsource : normalize accentedSource =
      ⟨[⟨1, ".HEAD ".toList⟩, ⟨2, "É = $10".toList⟩, ⟨3, ".ENDHEAD".toList⟩,
        ⟨4, ".CODE .MAIN".toList⟩, ⟨5, "STRASSE: NOP".toList⟩, ⟨6, ".ENDMAIN".toList⟩,
        ⟨7, ".ORG É ¬11 NOP .ENDORG".toList⟩, ⟨8, ".ORG .ORG $É .ENDORG".toList⟩,
        ⟨9, ".ENDCODE".toList⟩]⟩ := by decide +kernel
  have hsplit := split_framed accentedSource
  rw [normalize_indexed, hsource] at hsplit
  rw [normalize_indexed, hsource]
  obtain ⟨-, -, hparts, hinner⟩ := hsplit
  have hframed := (hparts ⟨5, 15⟩ ⟨29, 102⟩ (by decide +kernel)).2.2
  have hblocks := (hinner ⟨29, 102⟩ (by decide)).2.2.2
    { main := ⟨35, 49⟩
      interrupt := none
      orgs := [⟨"¬11".toList, 7, ⟨68, 73⟩⟩, ⟨"$É".toList, 8, ⟨93, 94⟩⟩,
        ⟨"$É".toList, 8, ⟨93, 94⟩⟩] } (by decide +kernel)
  refine ⟨by decide +kernel, ?_, ?_⟩
  · convert hframed using 1 <;> decide +kernel
  · convert hblocks using 1 <;> decide +kernel

end Source

end CrossAssembler
