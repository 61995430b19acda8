import CrossAssembler.Proofs.Assembly.ImageContent
import CrossAssembler.Proofs.Assembly.Symbols
import CrossAssembler.Proofs.Section.Freshness

namespace CrossAssembler

open Section

variable {bus : Bus} {pad : Bool} {labels labels' : Labels}
  {sites sites' : List (Site × List SourceLine)} {sections sections' : List Section}

def EncodesAlone (bus : Bus) (consts : NameTable Constant) (x : Site × List SourceLine)
    (s : Section) : Prop :=
  ∃ labels, BodyEncodes bus x.1 { consts } 0 x.2 labels s.words s.rows ∧
    s.kind = x.1.kind ∧ s.base = x.1.base

namespace SectionsEncode

theorem forall₂_alone (h : SectionsEncode bus labels sites labels' sections) :
    List.Forall₂ (EncodesAlone bus labels.consts) sites sections := by
  induction h with
  | nil => exact .nil
  | cons head _ ih =>
      rw [head.consts_eq] at ih
      exact .cons ⟨_, head.of_fresh rfl (by simp), rfl, rfl⟩ ih

theorem names_fresh (h : SectionsEncode bus labels sites labels' sections) {name : Text}
    (hname : name ∈ (sections.flatMap declarations).map Prod.fst) :
    name ∉ labels.codes.map Prod.fst := by
  induction h with
  | nil => simp at hname
  | cons head _ ih =>
      rw [List.flatMap_cons, List.map_append, List.mem_append, map_fst_declarations] at hname
      rcases hname with hname | hname
      · exact head.names_fresh hname
      · have := ih hname
        rw [head.codes_eq, List.map_append, List.mem_append, not_or] at this
        exact this.1

theorem names_distinct (h : SectionsEncode bus labels sites labels' sections) :
    ((sections.flatMap declarations).map Prod.fst).Nodup := by
  induction h with
  | nil => exact .nil
  | cons head tail ih =>
      rw [List.flatMap_cons, List.map_append, List.nodup_append, map_fst_declarations]
      refine ⟨head.names_distinct, ih, ?_⟩
      rintro name hhead _ htail rfl
      have := tail.names_fresh htail
      rw [head.codes_eq, List.map_append, List.mem_append, map_fst_declarationsAt, not_or] at this
      exact this.2 hhead

theorem of_alone (h : List.Forall₂ (EncodesAlone bus labels.consts) sites sections)
    (hdistinct : ((sections.flatMap declarations).map Prod.fst).Nodup)
    (hfresh : ∀ name ∈ (sections.flatMap declarations).map Prod.fst,
      name ∉ labels.codes.map Prod.fst) :
    SectionsEncode bus labels sites
      { labels with codes := labels.codes ++ sections.flatMap declarations } sections := by
  generalize hconsts : labels.consts = consts at h
  induction h generalizing labels with
  | nil =>
      subst hconsts
      rw [List.flatMap_nil, List.append_nil]
      exact .nil labels
  | @cons x s sites sections head _ ih =>
      obtain ⟨kind, base, words, rows⟩ := s
      obtain ⟨_, hbody, hkind, hbase⟩ := head
      simp only at hkind hbase
      subst hkind hbase
      rw [List.flatMap_cons, List.map_append] at hdistinct hfresh
      obtain ⟨-, htail, hapart⟩ := List.nodup_append.mp hdistinct
      let labels₁ : Labels :=
        { labels with codes := labels.codes ++ declarationsAt x.1.kind x.1.base rows }
      have hhead : BodyEncodes bus x.1 labels 0 x.2 labels₁ words rows := by
        refine hbody.of_fresh hconsts fun name hname => ?_
        rw [← map_fst_declarationsAt x.1.kind x.1.base] at hname
        exact hfresh name (List.mem_append_left _ hname)
      have hfresh₁ : ∀ name ∈ (sections.flatMap declarations).map Prod.fst,
          name ∉ labels₁.codes.map Prod.fst := by
        intro name hname
        rw [List.map_append, List.mem_append, not_or]
        exact ⟨hfresh name (List.mem_append_right _ hname),
          fun hhead => hapart name hhead name hname rfl⟩
      have hrest := ih htail hfresh₁ hconsts
      rw [List.append_assoc] at hrest
      exact .cons hhead hrest

theorem perm (h : SectionsEncode bus labels sites labels' sections) (hperm : sites'.Perm sites) :
    ∃ sections', sections'.Perm sections ∧ SectionsEncode bus labels sites'
      { labels with codes := labels.codes ++ sections'.flatMap declarations } sections' := by
  obtain ⟨sections', halone, hsections⟩ := List.perm_comp_forall₂ hperm h.forall₂_alone
  have hnames : ((sections'.flatMap declarations).map Prod.fst).Perm
      ((sections.flatMap declarations).map Prod.fst) :=
    (hsections.flatMap_right declarations).map Prod.fst
  refine ⟨sections', hsections, of_alone halone (hnames.nodup_iff.mpr h.names_distinct) ?_⟩
  intro name hname
  exact h.names_fresh (hnames.mem_iff.mp hname)

theorem address?_eq_of_perm (h : SectionsEncode bus labels sites labels' sections)
    (hperm : sections'.Perm sections) (name : Text) :
    Labels.address? { labels with codes := labels.codes ++ sections'.flatMap declarations } name =
      labels'.address? name := by
  have hcodes : NameTable.get? name (sections'.flatMap declarations) =
      NameTable.get? name (sections.flatMap declarations) :=
    (NameTable.get?_eq_of_perm (hperm.symm.flatMap_right declarations) h.names_distinct name).symm
  simp only [Labels.address?, h.codes_eq, NameTable.get?_append, hcodes]

end SectionsEncode

theorem Program.Placed.perm {p : Program} {orgs : List (OrgBlock (List SourceLine))}
    (h : p.Placed bus sites) (hperm : orgs.Perm p.orgs) :
    ∃ sites', sites'.Perm sites ∧ Program.Placed bus { p with orgs } sites' := by
  obtain ⟨orgSites, hsites, rfl⟩ := h
  obtain ⟨orgSites', hsites', hperm'⟩ := List.perm_comp_forall₂ hperm hsites
  exact ⟨_, (hperm'.append_left _).cons _, orgSites', hsites', rfl⟩

namespace Image

theorem cell_congr (h : ∀ name, labels.address? name = labels'.address? name) (s : Section)
    (offset : Nat) : s.cell bus labels offset = s.cell bus labels' offset := by
  unfold Section.cell
  split
  · rfl
  · rename_i w _
    cases w with
    | value n => rfl
    | label name half => simp only [Word.resolve, h name]

theorem valueAt_eq_of_perm (hperm : sections'.Perm sections)
    (happart : sections.Pairwise fun s t => s.stop ≤ t.base)
    (happart' : sections'.Pairwise fun s t => s.stop ≤ t.base)
    (h : ∀ name, labels.address? name = labels'.address? name) (addr : Nat) :
    valueAt bus labels' sections' addr = valueAt bus labels sections addr := by
  by_cases hcovered : ∃ s ∈ sections, s.contains addr = true
  · obtain ⟨s, hs, hcontains⟩ := hcovered
    rw [valueAt_of_contains happart hs hcontains,
      valueAt_of_contains happart' (hperm.mem_iff.mpr hs) hcontains, cell_congr h]
  · have huncovered : ∀ s ∈ sections, s.contains addr = false := by
      intro s hs
      rw [← Bool.not_eq_true]
      exact fun hcontains => hcovered ⟨s, hs, hcontains⟩
    rw [valueAt_of_uncovered huncovered,
      valueAt_of_uncovered fun s hs => huncovered s (hperm.mem_iff.mp hs)]

theorem start_eq_of_perm (hperm : sections'.Perm sections)
    (hsort : sections.Pairwise (·.base ≤ ·.base)) (hsort' : sections'.Pairwise (·.base ≤ ·.base)) :
    start sections' = start sections := by
  rcases eq_or_ne sections [] with rfl | hne
  · rw [hperm.eq_nil]
  · have hne' : sections' ≠ [] := fun h => hne (h ▸ hperm).nil_eq.symm
    obtain ⟨first, hmem, hfirst, hle⟩ := exists_first hsort hne
    obtain ⟨first', hmem', hfirst', hle'⟩ := exists_first hsort' hne'
    have hbase : first'.base = first.base :=
      Nat.le_antisymm (hle' first (hperm.mem_iff.mpr hmem)) (hle first' (hperm.mem_iff.mp hmem'))
    simp only [start, hfirst, hfirst', Option.map_some, hbase]

theorem total_eq_of_perm (hperm : sections'.Perm sections)
    (hsort : sections.Pairwise (·.base ≤ ·.base)) (hsort' : sections'.Pairwise (·.base ≤ ·.base))
    (hsame : ∀ s ∈ sections, ∀ t ∈ sections, s.base = t.base → lastStop pad s = lastStop pad t) :
    total pad sections' = total pad sections := by
  rcases eq_or_ne sections [] with rfl | hne
  · rw [hperm.eq_nil]
  · have hne' : sections' ≠ [] := fun h => hne (h ▸ hperm).nil_eq.symm
    obtain ⟨last, hmem, hlast, hle⟩ := exists_last hsort hne
    obtain ⟨last', hmem', hlast', hle'⟩ := exists_last hsort' hne'
    have hbase : last'.base = last.base :=
      Nat.le_antisymm (hle last' (hperm.mem_iff.mp hmem')) (hle' last (hperm.mem_iff.mpr hmem))
    simp only [total, hlast, hlast', Option.map_some,
      hsame last' (hperm.mem_iff.mp hmem') last hmem hbase]

theorem result_link_eq_of_perm (hperm : sections'.Perm sections)
    (hclear : sections.Pairwise Section.Clear)
    (hsame : ∀ s ∈ sections, ∀ t ∈ sections, s.base = t.base → lastStop pad s = lastStop pad t)
    (h : ∀ name, labels.address? name = labels'.address? name) :
    (link bus labels' pad sections').result = (link bus labels pad sections).result := by
  have hsorted : (byBase sections').Perm (byBase sections) :=
    (List.mergeSort_perm _ _).trans (hperm.trans (List.mergeSort_perm _ _).symm)
  have hclear' : sections'.Pairwise Section.Clear :=
    (hperm.pairwise_iff Section.Clear.symm).mpr hclear
  have hstart := start_eq_of_perm hsorted (pairwise_byBase sections) (pairwise_byBase sections')
  have htotal : total pad (byBase sections') = total pad (byBase sections) :=
    total_eq_of_perm hsorted (pairwise_byBase sections) (pairwise_byBase sections')
      fun s hs t ht => hsame s (List.mem_mergeSort.mp hs) t (List.mem_mergeSort.mp ht)
  have hvalue : ∀ addr, valueAt bus labels' (byBase sections') addr =
      valueAt bus labels (byBase sections) addr :=
    valueAt_eq_of_perm hsorted (pairwise_stop_le_base hclear) (pairwise_stop_le_base hclear') h
  rw [result_link, result_link, addresses, addresses, hstart, htotal, funext hvalue]

end Image

theorem Section.Settled.window?_eq {s t : Section} (hs : s.Settled bus) (ht : t.Settled bus)
    (hsBase : s.kind.isFixed = false → interruptEnd ≤ s.base)
    (htBase : t.kind.isFixed = false → interruptEnd ≤ t.base) (hbase : s.base = t.base) :
    s.kind.window? = t.kind.window? := by
  have hmain : 0 < mainEnd := by decide
  have hinterrupt : mainEnd < interruptEnd := by decide
  unfold Settled at hs ht
  cases hk : s.kind <;> cases hl : t.kind <;>
    simp only [hk, hl, SectionKind.isFixed, SectionKind.window?, Option.isSome_none,
      forall_const] at hs ht hsBase htBase ⊢ <;> omega

theorem SectionsEncode.lastStop_eq {p : Program}
    (h : SectionsEncode bus labels sites labels' sections) (hplaced : p.Placed bus sites)
    (hvalid : Layout.validate sections = .ok ()) {s t : Section} (hs : s ∈ sections)
    (ht : t ∈ sections) (hbase : s.base = t.base) :
    Image.lastStop pad s = Image.lastStop pad t := by
  rcases eq_or_ne s t with rfl | hne
  · rfl
  -- Two sections that start at one place are both empty, so only their windows count.
  · have : Std.Symm Section.Clear := ⟨fun _ _ => Section.Clear.symm⟩
    have hclear : s.Clear t := (h.pairwise_clear hplaced hvalid).forall hs ht hne
    have hs' := hclear.stop_le (Nat.le_of_eq hbase)
    have ht' := hclear.symm.stop_le (Nat.le_of_eq hbase.symm)
    have hstop : s.stop = t.stop := by
      have : s.base ≤ s.stop := Nat.le_add_right _ _
      have : t.base ≤ t.stop := Nat.le_add_right _ _
      omega
    have hbases := (Layout.validate_eq_ok_iff.mp hvalid).1
    have hwindow := (h.settled hplaced hs).window?_eq (h.settled hplaced ht) (hbases s hs)
      (hbases t ht) hbase
    simp only [Image.lastStop, hstop, hwindow]

namespace Program

theorem exists_build_of_perm {p : Program} {orgs : List (OrgBlock (List SourceLine))}
    (hperm : orgs.Perm p.orgs) {a : Assembly} (ha : (p.build bus pad labels).result = .ok a) :
    ∃ a', (Program.build bus pad labels { p with orgs }).result = .ok a' ∧ a'.image = a.image ∧
      ∀ name, a'.labels.address? name = a.labels.address? name := by
  obtain ⟨sections, hencode, hvalid, hlink, -⟩ := build_eq_ok_iff.mp ha
  obtain ⟨sites, hplaced, hencode⟩ := encode_eq_ok_iff.mp hencode
  obtain ⟨sites', hsites, hplaced'⟩ := hplaced.perm hperm
  obtain ⟨sections', hsections, hencode'⟩ := hencode.perm hsites
  have haddress := hencode.address?_eq_of_perm hsections
  have hlink' := hlink
  rw [← Image.result_link_eq_of_perm hsections (hencode.pairwise_clear hplaced hvalid)
    (fun s hs t ht => hencode.lastStop_eq hplaced hvalid hs ht)
    fun name => (haddress name).symm] at hlink'
  exact ⟨⟨a.image, Image.byBase sections', _⟩, build_eq_ok_iff.mpr ⟨sections',
    encode_eq_ok_iff.mpr ⟨sites', hplaced', hencode'⟩,
    Layout.validate_eq_ok_of_perm hsections.symm hvalid, hlink', rfl⟩, rfl, haddress⟩

theorem build_orgs_perm {p : Program} {orgs : List (OrgBlock (List SourceLine))}
    (hperm : orgs.Perm p.orgs) :
    ((∃ a, (p.build bus pad labels).result = .ok a) ↔
      ∃ a', (Program.build bus pad labels { p with orgs }).result = .ok a') ∧
    ∀ a a', (p.build bus pad labels).result = .ok a →
      (Program.build bus pad labels { p with orgs }).result = .ok a' →
      a'.image.words = a.image.words ∧ ∀ name, a'.labels.address? name = a.labels.address? name := by
  refine ⟨⟨?_, ?_⟩, ?_⟩
  · rintro ⟨a, ha⟩
    obtain ⟨a', ha', -⟩ := exists_build_of_perm hperm ha
    exact ⟨a', ha'⟩
  · rintro ⟨a', ha'⟩
    obtain ⟨a, ha, -⟩ := exists_build_of_perm (p := { p with orgs }) hperm.symm ha'
    exact ⟨a, ha⟩
  · intro a a' ha ha'
    obtain ⟨b, hb, himage, haddress⟩ := exists_build_of_perm hperm ha
    obtain rfl : b = a' := Except.ok.inj (hb.symm.trans ha')
    exact ⟨by rw [himage], haddress⟩

def crossedProgram : Program where
  main := [⟨5, "JMP SECOND".toList⟩]
  interrupt := none
  orgs :=
    [⟨"$400".toList, 7, [⟨8, "FIRST:".toList⟩, ⟨9, "JMP SECOND".toList⟩]⟩,
      ⟨"$404".toList, 11, [⟨12, "SECOND:".toList⟩, ⟨13, "JMP FIRST".toList⟩]⟩,
      ⟨"$408".toList, 15, []⟩, ⟨"$408".toList, 17, [⟨18, "THIRD:".toList⟩]⟩]

theorem build_orgs_perm_crossedProgram :
    crossedProgram.orgs.reverse.Perm crossedProgram.orgs ∧
      ∃ a a', (crossedProgram.build sampleBus false {}).result = .ok a ∧
        (Program.build sampleBus false {}
          { crossedProgram with orgs := crossedProgram.orgs.reverse }).result = .ok a' ∧
        a'.image.words = a.image.words ∧ a'.labels.address? "SECOND".toList = some 0x404 := by
  have h : (crossedProgram.buildInOrder? sampleBus false {}).any
      (fun a => a.labels.address? "SECOND".toList = some 0x404) = true := by decide +kernel
  obtain ⟨a, ha, haddress⟩ := (Option.any_eq_true _ _).mp h
  have hbuild := build_of_inOrder? ha
  have hperm := List.reverse_perm crossedProgram.orgs
  obtain ⟨hiff, hsame⟩ := @build_orgs_perm sampleBus false {} crossedProgram _ hperm
  obtain ⟨a', ha'⟩ := hiff.mp ⟨a, hbuild⟩
  obtain ⟨hwords, haddresses⟩ := hsame a a' hbuild ha'
  exact ⟨hperm, a, a', hbuild, ha', hwords, (haddresses _).trans (of_decide_eq_true haddress)⟩

end Program

end CrossAssembler
