import CrossAssembler.Proofs.Assembly.LabelResolution
import CrossAssembler.Proofs.Statement.Spelling
import Mathlib.Data.List.Infix

namespace CrossAssembler

open Outcome Section Sequence Text

variable {bus : Bus} {pad : Bool} {raw : Text} {a : Assembly}

def SectionKind.directive : SectionKind → Directive
  | .main => .main
  | .interrupt => .interrupt
  | .org _ => .org

def Labels.names (ls : Labels) : List Text :=
  ls.consts.map Prod.fst ++ ls.codes.map Prod.fst

theorem Section.Settled.base_unique {s t : Section} (hs : s.Settled bus) (ht : t.Settled bus)
    (hkind : s.kind = t.kind) : s.base = t.base := by
  unfold Settled at hs ht
  rw [hkind] at hs
  cases h : t.kind with
  | main =>
      simp only [h] at hs ht
      rw [hs.1, ht.1]
  | interrupt =>
      simp only [h] at hs ht
      rw [hs.1, ht.1]
  | org location =>
      simp only [h] at hs ht
      exact Except.ok.inj (hs.1.symm.trans ht.1)

namespace Run

theorem exists_row (run : Run bus pad raw a) {kind : SectionKind} {lines : List SourceLine}
    (h : (kind, lines) ∈ run.program.parts) {line : SourceLine} (hline : line ∈ lines) :
    ∃ s ∈ run.sections, ∃ r ∈ s.rows, r.code = line.text := by
  rw [← run.map_part, List.mem_map] at h
  obtain ⟨s, hs, hpart⟩ := h
  obtain ⟨-, rfl⟩ := Prod.mk.inj hpart
  obtain ⟨r, hr, rfl⟩ := List.mem_map.mp hline
  exact ⟨s, hs, r, hr, rfl⟩

theorem exists_words (run : Run bus pad raw a) {s : Section} (hs : s ∈ run.sections) {r : Row}
    (hr : r ∈ s.rows) : ∃ ws, r.words bus a.labels = .ok ws ∧
      ∀ k < ws.length, s.words[r.offset + k]? = ws[k]? := by
  obtain ⟨ws, hws, -, -, hget⟩ := (run.listed hs).getElem?_words hr
  exact ⟨ws, hws, hget⟩

theorem checkName_const (run : Run bus pad raw a) {name : Text} {l : Literal}
    (h : a.labels.constant? name = some l) : checkName name = .ok () :=
  Constants.checkName_of_constant? run.collected run.consts_eq h

theorem mem_names_of_refersTo (run : Run bus pad raw a) {s : Section} (hs : s ∈ run.sections)
    {r : Row} (hr : r ∈ s.rows) {name : Text} (href : r.RefersTo a.labels name) :
    name ∈ a.labels.codes.map Prod.fst := by
  obtain ⟨ws, hws, hget⟩ := run.exists_words hs hr
  obtain ⟨op, rfl⟩ := href.words_eq hws
  obtain ⟨n, -, hresolve⟩ := run.image_getElem? (run.mem_sections_iff.mpr hs) (hget 1 (by simp))
  obtain ⟨addr, haddr, -⟩ := Word.resolve_label_eq_ok.mp hresolve
  rw [Labels.address?, Option.map_eq_some_iff] at haddr
  obtain ⟨c, hc, -⟩ := haddr
  exact NameTable.mem_map_fst_of_get? hc

theorem exists_name_of_mem (run : Run bus pad raw a) {s : Section} (hs : s ∈ run.sections)
    {r : Row} (hr : r ∈ s.rows) {u : Text} (hu : ∀ c ∈ u, isBlank c = false ∧ isReserved c = false)
    (hdot : '.' ∈ u) (h : u <:+: r.code) : ∃ name ∈ a.labels.names, u <:+: name := by
  have hblank : ∀ c ∈ u, isBlank c = false := fun c hc => (hu c hc).1
  have hne : u ≠ [] := List.ne_nil_of_mem hdot
  obtain ⟨ws, hws, -⟩ := run.exists_words hs hr
  simp only [Row.words, bind_eq_ok] at hws
  obtain ⟨statement, hparse, hws⟩ := hws
  cases statement with
  | label name =>
      have hcolon : ':' ∉ u := fun hc => absurd (hu _ hc).2 (by decide)
      refine ⟨name, List.mem_append_right _ ?_, Statement.infix_name hparse
        (.of_not_isBlank hne hblank) hcolon h⟩
      rw [run.codes_eq, List.mem_map]
      refine ⟨_, List.mem_flatMap.mpr ⟨s, hs, mem_declarations.mpr ⟨r, hr, ?_, rfl⟩⟩, rfl⟩
      exact Row.declared?_eq_some_iff.mpr hparse
  | instruction m param =>
      have hparam := Statement.infix_param hparse hblank hdot (by decide) h
      rcases (encode_eq_ok_iff.mp hws).dotted (hparam.subset hdot) with
        ⟨token, l, hconst, heq⟩ | ⟨-, hlabel⟩
      · rw [Labels.constant?, Option.map_eq_some_iff] at hconst
        obtain ⟨c, hc, -⟩ := hconst
        refine ⟨token, List.mem_append_left _ (NameTable.mem_map_fst_of_get? hc), ?_⟩
        rcases heq with rfl | rfl
        · exact hparam
        · rcases List.infix_cons_iff.mp hparam with hpre | hparam
          · rcases List.prefix_cons_iff.mp hpre with rfl | ⟨t, rfl, -⟩
            · exact absurd rfl hne
            · exact absurd (hu '#' List.mem_cons_self).2 (by decide)
          · exact hparam
      · exact ⟨param, List.mem_append_right _
          (run.mem_names_of_refersTo hs hr ⟨m, hparse, hlabel⟩), hparam⟩

theorem marker_not_mem (run : Run bus pad raw a) {s : Section} (hs : s ∈ run.sections) {r : Row}
    (hr : r ∈ s.rows) (hdot : '.' ∈ r.code) (radix : Radix) : radix.marker ∉ r.code := by
  intro hmarker
  have hblank : ∀ c ∈ [radix.marker], isBlank c = false :=
    List.forall_mem_singleton.mpr (by cases radix <;> decide)
  have hnamed : ∀ {name : Text}, checkName name = .ok () → radix.marker ∉ name := by
    intro name hname hmem
    have := (checkName_eq_ok_iff.mp hname).2 _ hmem
    simp [radix.isReserved_marker] at this
  obtain ⟨ws, hws, -⟩ := run.exists_words hs hr
  simp only [Row.words, bind_eq_ok] at hws
  obtain ⟨statement, hparse, hws⟩ := hws
  cases statement with
  | label name =>
      have hcolon : ':' ∉ [radix.marker] := by cases radix <;> decide
      have hmem := Statement.infix_name hparse (.of_not_isBlank (by simp) hblank) hcolon
        ((List.singleton_infix_iff _ _).mpr hmarker)
      have hdeclared := Row.declared?_eq_some_iff.mpr hparse
      rw [List.singleton_infix_iff] at hmem
      exact hnamed (run.encoded.declared_ok hs hr hdeclared).1 hmem
  | instruction m param =>
      have hletter : radix.marker.toUpper.isUpper = false := by cases radix <;> decide
      have hmem := Statement.infix_param hparse hblank List.mem_cons_self hletter
        ((List.singleton_infix_iff _ _).mpr hmarker)
      have hdot := Statement.infix_param hparse (List.forall_mem_singleton.mpr (by decide))
        List.mem_cons_self (by decide) ((List.singleton_infix_iff _ _).mpr hdot)
      rw [List.singleton_infix_iff] at hmem hdot
      rcases (encode_eq_ok_iff.mp hws).dotted hdot with ⟨token, l, hconst, heq⟩ | ⟨hname, -⟩
      · have htoken := hnamed (run.checkName_const hconst)
        rcases heq with rfl | rfl
        · exact htoken hmem
        · rcases List.mem_cons.mp hmem with hhash | hmem
          · cases radix <;> simp [Radix.marker] at hhash
          · exact htoken hmem
      · exact hnamed hname hmem

theorem rows_eq_nil (run : Run bus pad raw a) {s : Section} (hs : s ∈ run.sections)
    (hwords : s.words = []) (hnames : ∀ r ∈ s.rows, r.declared? = none) : s.rows = [] := by
  rw [List.eq_nil_iff_forall_not_mem]
  intro r hr
  obtain ⟨ws, hws, hget⟩ := run.exists_words hs hr
  have hnone : ws = [] := by
    rw [List.eq_nil_iff_length_eq_zero]
    by_contra hpos
    have := hget 0 (Nat.pos_of_ne_zero hpos)
    rw [hwords, List.getElem?_nil, eq_comm, List.getElem?_eq_none_iff] at this
    omega
  simp only [Row.words, bind_eq_ok] at hws
  obtain ⟨statement, hparse, hws⟩ := hws
  cases statement with
  | label name => simpa [Row.declared?_eq_some_iff.mpr hparse] using hnames r hr
  | instruction m param =>
      rw [hnone] at hws
      cases encode_eq_ok_iff.mp hws

theorem pairwise_parts (run : Run bus pad raw a) :
    run.program.parts.Pairwise fun x y => x = y → x.2 = [] := by
  have hnames := run.names_nodup
  rw [run.codes_eq, List.map_flatMap, List.nodup_flatMap] at hnames
  simp only [map_fst_declarations] at hnames
  rw [← run.map_part, List.pairwise_map]
  refine List.Pairwise.imp_of_mem ?_ (run.pairwise_clear.and hnames.2)
  rintro s t hs ht ⟨hclear, hdisjoint⟩ hpart
  obtain ⟨hkind, hrows⟩ := Prod.mk.inj hpart
  have hbase := (run.settled hs).base_unique (run.settled ht) hkind
  have hempty : s.words = [] := by
    have := contains_eq_false_iff.mp hclear.1
    rw [← hbase, Section.stop, Section.size] at this
    exact List.length_eq_zero_iff.mp (by omega)
  have hrowsNil : s.rows = [] := by
    refine run.rows_eq_nil hs hempty fun r hr => ?_
    by_contra hsome
    obtain ⟨name, hname⟩ := Option.ne_none_iff_exists'.mp hsome
    have hsource : r.source ∈ t.rows.map Row.source := by
      rw [← hrows]
      exact List.mem_map_of_mem hr
    obtain ⟨r', hr', heq⟩ := List.mem_map.mp hsource
    have hcode : r'.code = r.code := congrArg SourceLine.text heq
    have hname' : r'.declared? = some name := by
      rwa [Row.declared?_eq_some_iff, hcode, ← Row.declared?_eq_some_iff]
    exact hdisjoint (List.mem_filterMap.mpr ⟨r, hr, hname⟩)
      (List.mem_filterMap.mpr ⟨r', hr', hname'⟩)
  simp [Section.part, hrowsNil]

theorem dot_not_mem_location (run : Run bus pad raw a) {location : Text} {lines : List SourceLine}
    (h : (.org location, lines) ∈ run.program.parts) : '.' ∉ location := by
  rw [← run.map_part, List.mem_map] at h
  obtain ⟨s, hs, hpart⟩ := h
  have hsettled := run.settled hs
  simp only [Settled, (Prod.mk.inj hpart).1] at hsettled
  obtain ⟨l, hl, -⟩ := orgBase_eq_ok_iff.mp hsettled.1
  exact Literal.dot_not_mem_of_parse? hl

end Run

namespace Source

variable {src : Source} {stop : Nat}

def InOrder (src : Source) (stop : Nat) (x y : SectionKind × Span) : Prop :=
  x.1.directive ≠ y.1.directive ∨
    ∃ b b' pos pos', pos < pos' ∧ src.OrgReads stop pos b ∧ src.OrgReads stop pos' b' ∧
      x = (.org b.location, b.body) ∧ y = (.org b'.location, b'.body)

theorem exists_orgReads {code : Span} {blocks : CodeBlocks Span}
    (h : src.codeBlocks code = .ok blocks) {b : OrgBlock Span} (hb : b ∈ blocks.orgs) :
    ∃ pos, src.OrgReads code.stop pos b := by
  simp only [codeBlocks, bind_eq_ok, pure_eq_ok] at h
  obtain ⟨main, -, interrupt, -, orgs, horgs, rfl⟩ := h
  obtain ⟨pos, -, hreads⟩ := exists_of_forall₂_of_mem (forall₂_orgReads horgs) hb
  exact ⟨_, hreads⟩

theorem encloses_of_codeBlocks {code : Span} {blocks : CodeBlocks Span}
    (h : src.codeBlocks code = .ok blocks) :
    ∀ x ∈ blocks.parts, src.Encloses x.1.directive code.stop x.2 := by
  have hreads := fun b => exists_orgReads h (b := b)
  simp only [codeBlocks, bind_eq_ok, pure_eq_ok] at h
  obtain ⟨main, hmain, interrupt, hinterrupt, orgs, -, rfl⟩ := h
  intro x hx
  simp only [CodeBlocks.parts, List.mem_cons, List.mem_append, List.mem_map,
    Option.mem_toList] at hx
  rcases hx with rfl | ⟨body, rfl, rfl⟩ | ⟨b, hb, rfl⟩
  · exact encloses_of_block hmain
  · exact encloses_of_block? hinterrupt
  · obtain ⟨pos, hreads⟩ := hreads b hb
    exact hreads.encloses

theorem inOrder_of_codeBlocks {code : Span} {blocks : CodeBlocks Span}
    (h : src.codeBlocks code = .ok blocks) : blocks.parts.Pairwise (src.InOrder code.stop) := by
  simp only [codeBlocks, bind_eq_ok, pure_eq_ok] at h
  obtain ⟨main, -, interrupt, -, orgs, horgs, rfl⟩ := h
  have hlist : (orgs.map fun b => (SectionKind.org b.location, b.body)).Pairwise
      (src.InOrder code.stop) := by
    rw [List.pairwise_map]
    refine (pairwise_of_forall₂ (forall₂_orgReads horgs) (pairwise_occurrences _ _)).imp ?_
    rintro b b' ⟨pos, pos', hlt, hb, hb'⟩
    exact .inr ⟨b, b', _, _, Nat.add_lt_add_left hlt _, hb, hb', rfl, rfl⟩
  cases interrupt <;>
    simp [CodeBlocks.parts, hlist, InOrder, SectionKind.directive]

end Source

namespace Run

variable {src : Source} {blocks : CodeBlocks Span}

theorem exists_row_of_reads (run : Run bus pad raw a)
    (hblocks : run.program = blocks.map src.linesIn) {x : SectionKind × Span}
    (hx : x ∈ blocks.parts) {u : Text} {pos : Nat} (hu : Tight u) (hline : '\n' ∉ u)
    (h : u <+: src.text.drop pos) (hstart : x.2.start ≤ pos) (hstop : pos + u.length ≤ x.2.stop) :
    ∃ s ∈ run.sections, ∃ r ∈ s.rows, u <:+: r.code := by
  obtain ⟨line, hmem, hpart⟩ := Source.exists_piece_of_prefix hu hline h hstart hstop
  have hparts : (x.1, src.linesIn x.2) ∈ run.program.parts := by
    rw [hblocks, CodeBlocks.parts_map]
    exact List.mem_map_of_mem hx
  obtain ⟨s, hs, r, hr, hcode⟩ := run.exists_row hparts hmem
  exact ⟨s, hs, r, hr, hcode ▸ hpart⟩

theorem exists_name_of_closing (run : Run bus pad raw a)
    (hblocks : run.program = blocks.map src.linesIn) {x : SectionKind × Span}
    (hx : x ∈ blocks.parts) {d : Directive} {stop pos : Nat} (h : src.Reads d.closing stop pos)
    (hstart : x.2.start ≤ pos) (hstop : pos + d.closing.length ≤ x.2.stop) :
    ∃ name ∈ a.labels.names, d.closing <:+: name := by
  have hall : d.closing.all (fun c => !isBlank c && !isReserved c) = true := by
    cases d <;> decide
  have hchars : ∀ c ∈ d.closing, isBlank c = false ∧ isReserved c = false := by
    intro c hc
    simpa using List.all_eq_true.mp hall c hc
  have hdot : '.' ∈ d.closing := by cases d <;> decide
  obtain ⟨s, hs, r, hr, hcode⟩ := run.exists_row_of_reads hblocks hx
    (Directive.tight_of_mem_marks d.closing_mem_marks)
    (Directive.newline_not_mem d.closing_mem_marks) h.1 hstart hstop
  exact run.exists_name_of_mem hs hr hchars hdot hcode

theorem eq_of_org_meets (run : Run bus pad raw a)
    (hblocks : run.program = blocks.map src.linesIn) {stop pos pos' : Nat} {b b' : OrgBlock Span}
    (hlt : pos < pos') (h : src.OrgReads stop pos b) (h' : src.OrgReads stop pos' b')
    (hx : (.org b.location, b.body) ∈ blocks.parts) (hmeet : b.body.Meets b'.body) :
    b'.location = b.location ∧ b'.body = b.body := by
  have hparts : (.org b.location, src.linesIn b.body) ∈ run.program.parts := by
    rw [hblocks, CodeBlocks.parts_map]
    exact List.mem_map_of_mem hx
  obtain ⟨shared, hs, hs', ht, ht'⟩ := hmeet
  rcases Nat.lt_or_ge pos' b.body.start with hin | hafter
  · obtain ⟨hlocation, hstart⟩ := h.start_eq h' hlt hin (run.dot_not_mem_location hparts)
    have hstop := h.encloses.stop_eq h'.encloses (by omega) (by omega)
    refine ⟨hlocation, ?_⟩
    calc b'.body = ⟨b'.body.start, b'.body.stop⟩ := rfl
      _ = b.body := by rw [hstart, hstop]
  · obtain ⟨gap, htight, hline, hreads, hlength, radix, hmarker⟩ := h'.exists_gap
    obtain ⟨s, hsec, r, hr, hcode⟩ := run.exists_row_of_reads hblocks hx htight hline hreads hafter
      (by simp only; omega)
    have hopening : '.' ∈ Directive.org.opening := by decide
    have hdot : '.' ∈ r.code :=
      hcode.subset (List.mem_append_left _ (List.mem_append_left _ hopening))
    exact absurd (hcode.subset (List.mem_append_right _ hmarker))
      (run.marker_not_mem hsec hr hdot radix)

end Run

theorem assemble_bodies_apart (h : (assemble bus pad raw).result = .ok a)
    (hnames : ∀ name ∈ a.labels.names, ∀ d ∈ [Directive.main, .interrupt, .org],
      ¬d.closing <:+: name) :
    ∃ head code blocks, (Source.normalize raw).headAndCode = .ok (head, code) ∧
      (Source.normalize raw).codeBlocks code = .ok blocks ∧
      (blocks.parts.Pairwise fun x y => x.2.Meets y.2 →
        x = y ∧ (Source.normalize raw).linesIn x.2 = []) ∧
      (a.sections.map Section.part).Perm
        (blocks.parts.map fun x => (x.1, (Source.normalize raw).linesIn x.2)) := by
  obtain ⟨run⟩ := assemble_eq_ok_iff.mp h
  have hsplit := run.split
  simp only [Source.program, bind_eq_ok, pure_eq_ok, Prod.exists, Prod.mk.injEq] at hsplit
  obtain ⟨head, code, hhead, blocks, hcode, -, hprogram⟩ := hsplit
  have hdirective : ∀ kind : SectionKind, kind.directive ∈ [Directive.main, .interrupt, .org] := by
    intro kind
    cases kind <;> simp [SectionKind.directive]
  refine ⟨head, code, blocks, hhead, hcode, ?_, ?_⟩
  · have hempty := run.pairwise_parts
    rw [← hprogram, CodeBlocks.parts_map, List.pairwise_map] at hempty
    have hencloses := Source.encloses_of_codeBlocks hcode
    refine List.Pairwise.imp_of_mem ?_ ((Source.inOrder_of_codeBlocks hcode).and hempty)
    rintro x y hx hy ⟨horder, hsame⟩ hmeet
    have hxy : x = y := by
      rcases horder with hd | ⟨b, b', pos, pos', hlt, hb, hb', rfl, rfl⟩
      · rcases (hencloses x hx).holds_closing (hencloses y hy) hd hmeet with hin | hin
        · obtain ⟨name, hname, hmem⟩ := run.exists_name_of_closing hprogram.symm hx
            (hencloses y hy).closed hin.1 hin.2
          exact absurd hmem (hnames name hname _ (hdirective _))
        · obtain ⟨name, hname, hmem⟩ := run.exists_name_of_closing hprogram.symm hy
            (hencloses x hx).closed hin.1 hin.2
          exact absurd hmem (hnames name hname _ (hdirective _))
      · obtain ⟨hlocation, hbody⟩ := run.eq_of_org_meets hprogram.symm hlt hb hb' hx hmeet
        rw [hlocation, hbody]
    exact ⟨hxy, hsame (by rw [hxy])⟩
  · have hparts := run.perm_parts
    rw [← hprogram, CodeBlocks.parts_map] at hparts
    exact hparts

theorem exists_codeBlocks_of_any {src : Source} {p : CodeBlocks Span → Bool}
    (h : (src.headAndCode.toOption.bind fun x => (src.codeBlocks x.2).toOption).any p = true) :
    ∃ head code blocks, src.headAndCode = .ok (head, code) ∧ src.codeBlocks code = .ok blocks ∧
      p blocks = true := by
  obtain ⟨blocks, hblocks, hp⟩ := (Option.any_eq_true _ _).mp h
  obtain ⟨⟨head, code⟩, hhead, hcode⟩ := Option.bind_eq_some_iff.mp hblocks
  exact ⟨head, code, blocks, toOption_eq_some.mp hhead, toOption_eq_some.mp hcode, hp⟩

def dottedSource : Text :=
  [".head", "MAX.END = %3", ".endhead", ".code", ".main", "LOOP.MAIN:", "LDA #MAX.END",
    "JMP LOOP.MAIN", ".endmain", ".org .org $400", ".endorg", ".endcode"].flatMap
    (·.toList ++ ['\n'])

theorem assemble_bodies_apart_dottedSource :
    ∃ a, (assemble sampleBus true dottedSource).result = .ok a ∧ a.sections.length = 3 ∧
      ∃ head code blocks, (Source.normalize dottedSource).headAndCode = .ok (head, code) ∧
        (Source.normalize dottedSource).codeBlocks code = .ok blocks ∧
        blocks.parts.Pairwise fun x y => x.2.Meets y.2 →
          x = y ∧ (Source.normalize dottedSource).linesIn x.2 = [] := by
  have h : (assembleInOrder? sampleBus true dottedSource).any (fun a =>
      a.sections.length = 3 ∧ ∀ name ∈ a.labels.names, ∀ d ∈ [Directive.main, .interrupt, .org],
        ¬d.closing <:+: name) = true := by decide +kernel
  obtain ⟨a, ha, hchecks⟩ := (Option.any_eq_true _ _).mp h
  obtain ⟨hlength, hnames⟩ := of_decide_eq_true hchecks
  obtain ⟨head, code, blocks, hhead, hcode, hapart, -⟩ :=
    assemble_bodies_apart (assemble_of_inOrder? ha) hnames
  exact ⟨a, assemble_of_inOrder? ha, hlength, head, code, blocks, hhead, hcode, hapart⟩

def sharedBodySource : Text :=
  [".head", ".endhead", ".code", ".main", ".interruptx:", "NOP", ".endmainy:", ".endinterrupt",
    ".endcode"].flatMap (·.toList ++ ['\n'])

def sharedLocationSource : Text :=
  [".head", ".endhead", ".code", ".main", "NOP", ".endmain", ".org .org $400", ".endorg",
    ".endcode"].flatMap (·.toList ++ ['\n'])

theorem not_forall_bodies_apart :
    (∃ a head code blocks, (assemble sampleBus false sharedBodySource).result = .ok a ∧
      (Source.normalize sharedBodySource).headAndCode = .ok (head, code) ∧
      (Source.normalize sharedBodySource).codeBlocks code = .ok blocks ∧
      (¬blocks.parts.Pairwise fun x y => ¬x.2.Meets y.2) ∧
      ∀ kind ∈ [SectionKind.main, .interrupt], ∃ s ∈ a.sections, s.kind = kind ∧
        ⟨6, 0, 1, "NOP".toList⟩ ∈ s.rows) ∧
    ∃ a head code blocks, (assemble sampleBus false sharedLocationSource).result = .ok a ∧
      (Source.normalize sharedLocationSource).headAndCode = .ok (head, code) ∧
      (Source.normalize sharedLocationSource).codeBlocks code = .ok blocks ∧
      ¬blocks.parts.Pairwise fun x y => ¬x.2.Meets y.2 := by
  have hmeet : ∀ raw ∈ [sharedBodySource, sharedLocationSource],
      ((Source.normalize raw).headAndCode.toOption.bind fun x =>
        ((Source.normalize raw).codeBlocks x.2).toOption).any (fun blocks =>
          ¬blocks.parts.Pairwise fun x y => ¬x.2.Meets y.2) = true := by decide +kernel
  constructor
  · have hrows : (assembleInOrder? sampleBus false sharedBodySource).any (fun a =>
        ∀ kind ∈ [SectionKind.main, .interrupt], ∃ s ∈ a.sections, s.kind = kind ∧
          ⟨6, 0, 1, "NOP".toList⟩ ∈ s.rows) = true := by decide +kernel
    obtain ⟨a, ha, hshared⟩ := (Option.any_eq_true _ _).mp hrows
    obtain ⟨head, code, blocks, hhead, hcode, hmeets⟩ :=
      exists_codeBlocks_of_any (hmeet sharedBodySource (by simp))
    exact ⟨a, head, code, blocks, assemble_of_inOrder? ha, hhead, hcode, of_decide_eq_true hmeets,
      of_decide_eq_true hshared⟩
  · have hok : (assembleInOrder? sampleBus false sharedLocationSource).isSome = true := by
      decide +kernel
    obtain ⟨a, ha⟩ := Option.isSome_iff_exists.mp hok
    obtain ⟨head, code, blocks, hhead, hcode, hmeets⟩ :=
      exists_codeBlocks_of_any (hmeet sharedLocationSource (by simp))
    exact ⟨a, head, code, blocks, assemble_of_inOrder? ha, hhead, hcode, of_decide_eq_true hmeets⟩

end CrossAssembler
