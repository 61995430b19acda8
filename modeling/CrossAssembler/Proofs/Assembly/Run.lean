import CrossAssembler.Assembly
import CrossAssembler.Proofs.Bus
import CrossAssembler.Proofs.Image.Linking
import CrossAssembler.Proofs.Section.Encoding

namespace CrossAssembler

open Outcome Section

variable {bus : Bus}

inductive SectionsEncode (bus : Bus) :
    Labels → List (Site × List SourceLine) → Labels → List Section → Prop
  | nil (labels : Labels) : SectionsEncode bus labels [] labels []
  | cons {labels labels₁ labels₂ : Labels} {site : Site} {body : List SourceLine}
      {sites : List (Site × List SourceLine)} {words : List Word} {rows : List Row}
      {sections : List Section} (head : BodyEncodes bus site labels 0 body labels₁ words rows)
      (tail : SectionsEncode bus labels₁ sites labels₂ sections) :
      SectionsEncode bus labels ((site, body) :: sites) labels₂
        (⟨site.kind, site.base, words, rows⟩ :: sections)

namespace Program

def mainSite : Site :=
  ⟨.main, 0, mainEnd⟩

def interruptSite : Site :=
  ⟨.interrupt, mainEnd, interruptEnd⟩

def OrgSite (bus : Bus) (org : OrgBlock (List SourceLine)) (x : Site × List SourceLine) : Prop :=
  ∃ base, orgBase org.location bus = .ok base ∧
    x = (⟨.org org.location, base, bus.space - 1⟩, org.body)

def Placed (bus : Bus) (p : Program) (sites : List (Site × List SourceLine)) : Prop :=
  ∃ orgs, List.Forall₂ (OrgSite bus) p.orgs orgs ∧
    sites = (mainSite, p.main) :: (p.interrupt.toList.map (interruptSite, ·) ++ orgs)

theorem encodeOrgs_eq_ok_iff {labels labels' : Labels} {orgs : List (OrgBlock (List SourceLine))}
    {sections : List Section} :
    (encodeOrgs bus labels orgs).result = .ok (labels', sections) ↔
      ∃ sites, List.Forall₂ (OrgSite bus) orgs sites ∧
        SectionsEncode bus labels sites labels' sections := by
  induction orgs generalizing labels sections with
  | nil =>
      simp only [encodeOrgs, Traced.result_pure, Except.ok.injEq, Prod.mk.injEq,
        List.forall₂_nil_left_iff, exists_eq_left]
      constructor
      · rintro ⟨rfl, rfl⟩
        exact .nil labels
      · intro h
        cases h
        exact ⟨rfl, rfl⟩
  | cons org orgs ih =>
      simp only [encodeOrgs, Traced.result_bind, Traced.result_ofExcept, bind_eq_ok, mapError_eq_ok,
        Traced.result_pure, Except.ok.injEq, Prod.mk.injEq, Prod.exists, Section.encode_eq_ok_iff]
      constructor
      · rintro ⟨base, hbase, _, _, ⟨words, rows, hbody, rfl⟩, _, more, hmore, rfl, rfl⟩
        obtain ⟨sites, hsites, hencode⟩ := ih.mp hmore
        exact ⟨_, .cons ⟨base, hbase, rfl⟩ hsites, .cons hbody hencode⟩
      · rintro ⟨_, hsites, hencode⟩
        cases hsites with
        | cons hsite hsites =>
            obtain ⟨base, hbase, rfl⟩ := hsite
            cases hencode with
            | cons head tail =>
                exact ⟨base, hbase, _, _, ⟨_, _, head, rfl⟩, _, _, ih.mpr ⟨_, hsites, tail⟩,
                  rfl, rfl⟩

theorem encode_eq_ok_iff {labels labels' : Labels} {p : Program} {sections : List Section} :
    (p.encode bus labels).result = .ok (labels', sections) ↔
      ∃ sites, p.Placed bus sites ∧ SectionsEncode bus labels sites labels' sections := by
  obtain ⟨main, interrupt, orgs⟩ := p
  cases interrupt with
  | none =>
      simp only [encode, Placed, Traced.result_bind, bind_eq_ok, Traced.result_pure,
        Except.ok.injEq, Prod.mk.injEq, Prod.exists, Section.encode_eq_ok_iff,
        encodeOrgs_eq_ok_iff]
      constructor
      · rintro ⟨_, _, ⟨words, rows, hmain, rfl⟩, _, _, ⟨rfl, rfl⟩, _, _, ⟨sites, hsites, horgs⟩,
          rfl, rfl⟩
        exact ⟨_, ⟨sites, hsites, rfl⟩, .cons hmain horgs⟩
      · rintro ⟨_, ⟨sites, hsites, rfl⟩, hencode⟩
        cases hencode with
        | cons hmain horgs =>
            exact ⟨_, _, ⟨_, _, hmain, rfl⟩, _, _, ⟨rfl, rfl⟩, _, _, ⟨sites, hsites, horgs⟩,
              rfl, rfl⟩
  | some body =>
      simp only [encode, Placed, Traced.result_bind, bind_eq_ok, Traced.result_pure,
        Except.ok.injEq, Prod.mk.injEq, Prod.exists, Section.encode_eq_ok_iff,
        encodeOrgs_eq_ok_iff]
      constructor
      · rintro ⟨_, _, ⟨words, rows, hmain, rfl⟩, _, _, ⟨words', rows', hbody, rfl⟩, _, _,
          ⟨rfl, rfl⟩, _, _, ⟨sites, hsites, horgs⟩, rfl, rfl⟩
        exact ⟨_, ⟨sites, hsites, rfl⟩, .cons hmain (.cons hbody horgs)⟩
      · rintro ⟨_, ⟨sites, hsites, rfl⟩, hencode⟩
        cases hencode with
        | cons hmain hmore =>
            cases hmore with
            | cons hbody horgs =>
                exact ⟨_, _, ⟨_, _, hmain, rfl⟩, _, _, ⟨_, _, hbody, rfl⟩, _, _, ⟨rfl, rfl⟩, _, _,
                  ⟨sites, hsites, horgs⟩, rfl, rfl⟩

end Program

structure Run (bus : Bus) (pad : Bool) (raw : Text) (a : Assembly) where
  head : List SourceLine
  program : Program
  constants : Labels
  sites : List (Site × List SourceLine)
  sections : List Section
  split : (Source.normalize raw).program = .ok (head, program)
  collected : (Constants.collect .empty head).result = .ok constants
  placed : program.Placed bus sites
  encoded : SectionsEncode bus constants sites a.labels sections
  valid : Layout.validate sections = .ok ()
  linked : (Image.link bus a.labels pad sections).result = .ok a.image
  sorted : a.sections = Image.byBase sections

theorem Run.perm_sections {pad : Bool} {raw : Text} {a : Assembly} (run : Run bus pad raw a) :
    a.sections.Perm run.sections := by
  rw [run.sorted]
  exact List.mergeSort_perm _ _

theorem Program.build_eq_ok_iff {pad : Bool} {labels : Labels} {p : Program} {a : Assembly} :
    (p.build bus pad labels).result = .ok a ↔
      ∃ sections, (p.encode bus labels).result = .ok (a.labels, sections) ∧
        Layout.validate sections = .ok () ∧
        (Image.link bus a.labels pad sections).result = .ok a.image ∧
        a.sections = Image.byBase sections := by
  simp only [build, Traced.result_bind, bind_eq_ok, Traced.result_tell, Traced.result_ofExcept,
    mapError_eq_ok, Traced.result_pure, Except.ok.injEq, Prod.exists]
  constructor
  · rintro ⟨labels', sections, hencode, -, -, _, hvalid, image, hlink, rfl⟩
    exact ⟨sections, hencode, hvalid, hlink, rfl⟩
  · rintro ⟨sections, hencode, hvalid, hlink, hsorted⟩
    refine ⟨a.labels, sections, hencode, (), trivial, (), hvalid, a.image, hlink, ?_⟩
    rw [← hsorted]

theorem assemble_eq_ok_iff {pad : Bool} {raw : Text} {a : Assembly} :
    (assemble bus pad raw).result = .ok a ↔ Nonempty (Run bus pad raw a) := by
  simp only [assemble, Traced.result_bind, bind_eq_ok, Traced.result_tell, Traced.result_ofExcept,
    mapError_eq_ok, Prod.exists, Program.build_eq_ok_iff, Program.encode_eq_ok_iff]
  constructor
  · rintro ⟨head, program, hsplit, -, -, constants, hcollect, -, -, sections,
      ⟨sites, hplaced, hencode⟩, hvalid, hlink, hsorted⟩
    exact ⟨⟨head, program, constants, sites, sections, hsplit, hcollect, hplaced, hencode,
      hvalid, hlink, hsorted⟩⟩
  · rintro ⟨run⟩
    exact ⟨run.head, run.program, run.split, (), trivial, run.constants, run.collected, (), trivial,
      run.sections, ⟨run.sites, run.placed, run.encoded⟩, run.valid, run.linked, run.sorted⟩

def Program.buildInOrder? (bus : Bus) (pad : Bool) (labels : Labels) (p : Program) :
    Option Assembly := do
  let (labels, sections) ← (p.encode bus labels).result.toOption
  if Layout.validate sections = .ok () ∧ (sections.Pairwise fun s t => s.base ≤ t.base) ∧
      Image.total pad sections ≤ Image.maxWords then
    let words ← ((Image.addresses pad sections).mapM (Image.valueAt bus labels sections)).toOption
    return { image := ⟨bus, words⟩, sections, labels }
  else none

theorem Program.build_of_inOrder? {pad : Bool} {labels : Labels} {p : Program} {a : Assembly}
    (h : p.buildInOrder? bus pad labels = some a) : (p.build bus pad labels).result = .ok a := by
  simp only [buildInOrder?, Option.bind_eq_bind, Option.bind_eq_some_iff, toOption_eq_some,
    Prod.exists] at h
  obtain ⟨labels', sections, hencode, h⟩ := h
  split at h
  · rename_i hchecks
    obtain ⟨hvalid, hsorted, hsize⟩ := hchecks
    simp only [Option.bind_eq_some_iff, toOption_eq_some, Option.pure_def, Option.some.injEq] at h
    obtain ⟨words, hwords, rfl⟩ := h
    have hbyBase : Image.byBase sections = sections := Image.byBase_eq_self hsorted
    have hlinked : (Image.link bus labels' pad sections).result = .ok ⟨bus, words⟩ := by
      rw [Image.result_link, hbyBase, if_neg (Nat.not_lt.mpr hsize), hwords]
      rfl
    exact build_eq_ok_iff.mpr ⟨sections, hencode, hvalid, hlinked, hbyBase.symm⟩
  · simp at h

def assembleInOrder? (bus : Bus) (pad : Bool) (raw : Text) : Option Assembly := do
  let (head, program) ← (Source.normalize raw).program.toOption
  let constants ← (Constants.collect .empty head).result.toOption
  program.buildInOrder? bus pad constants

theorem assemble_of_inOrder? {pad : Bool} {raw : Text} {a : Assembly}
    (h : assembleInOrder? bus pad raw = some a) : (assemble bus pad raw).result = .ok a := by
  simp only [assembleInOrder?, Option.bind_eq_bind, Option.bind_eq_some_iff, toOption_eq_some,
    Prod.exists] at h
  obtain ⟨head, program, hsplit, constants, hcollect, hbuild⟩ := h
  simp only [assemble, Traced.result_bind, bind_eq_ok, Traced.result_tell, Traced.result_ofExcept,
    mapError_eq_ok, Prod.exists]
  exact ⟨head, program, hsplit, (), trivial, constants, hcollect, (), trivial,
    Program.build_of_inOrder? hbuild⟩

def sampleLines : List Text :=
  [".head", "STEP = %3", ".endhead", ".code", ".main", "START:", "LDA #STEP", "JMP HANDLER",
    ".endmain", ".interrupt", "HANDLER:", "STA $1234", "BZS START", ".endinterrupt", ".org $400",
    "JSR START", ".endorg", ".endcode"].map String.toList

def sampleSource : Text :=
  sampleLines.flatMap (· ++ ['\n'])

def sampleSections : List Section :=
  [⟨.main, 0,
      [.value 31, .value 3, .value 62, .label "HANDLER".toList .low, .label "HANDLER".toList .high],
      [⟨6, 0, 0, "START:".toList⟩, ⟨7, 0, 2, "LDA #STEP".toList⟩,
        ⟨8, 2, 3, "JMP HANDLER".toList⟩]⟩,
    ⟨.interrupt, 256,
      [.value 41, .value 52, .value 18, .value 72, .label "START".toList .low,
        .label "START".toList .high],
      [⟨11, 0, 0, "HANDLER:".toList⟩, ⟨12, 0, 3, "STA $1234".toList⟩,
        ⟨13, 3, 3, "BZS START".toList⟩]⟩,
    ⟨.org "$400".toList, 1024,
      [.value 63, .label "START".toList .low, .label "START".toList .high],
      [⟨16, 0, 3, "JSR START".toList⟩]⟩]

def sampleLabels : Labels :=
  { consts := [("STEP".toList, ⟨2, ⟨.dec, 3⟩⟩)],
    codes := [("START".toList, ⟨6, .main, 0⟩), ("HANDLER".toList, ⟨11, .interrupt, 256⟩)] }

theorem exists_assemble_sampleSource :
    ∃ a, (assemble sampleBus true sampleSource).result = .ok a ∧ a.sections = sampleSections ∧
      a.labels = sampleLabels ∧
      (sampleSections.map fun s => (a.image.words.drop s.base).take s.size) =
        [[31, 3, 62, 0, 1], [41, 52, 18, 72, 0, 0], [63, 0, 0]] := by
  have h : (assembleInOrder? sampleBus true sampleSource).any (fun a =>
      a.sections = sampleSections ∧ a.labels = sampleLabels ∧
      (sampleSections.map fun s => (a.image.words.drop s.base).take s.size) =
        [[31, 3, 62, 0, 1], [41, 52, 18, 72, 0, 0], [63, 0, 0]]) = true := by decide +kernel
  obtain ⟨a, ha, hchecks⟩ := (Option.any_eq_true _ _).mp h
  exact ⟨a, assemble_of_inOrder? ha, of_decide_eq_true hchecks⟩

end CrossAssembler
