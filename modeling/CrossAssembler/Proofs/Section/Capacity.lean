import CrossAssembler.Proofs.Bus
import CrossAssembler.Proofs.Section.Listing
import Mathlib.Data.List.Induction

namespace CrossAssembler

open Outcome

variable {bus : Bus} {labels labels' : Labels}

namespace SourceLine

def words (bus : Bus) (labels : Labels) (l : SourceLine) : Except Fault (List Word) :=
  Row.words bus labels ⟨l.number, 0, 0, l.text⟩

def declared? (l : SourceLine) : Option Text :=
  Row.declared? ⟨l.number, 0, 0, l.text⟩

def size (bus : Bus) (labels : Labels) (l : SourceLine) : Nat :=
  match l.words bus labels with
  | .ok ws => ws.length
  | .error _ => 0

def extent (bus : Bus) (labels : Labels) : List SourceLine → Nat
  | [] => 0
  | l :: lines => l.size bus labels + extent bus labels lines

variable {l : SourceLine} {lines : List SourceLine}

theorem declared?_eq_some_iff {name : Text} :
    l.declared? = some name ↔ Statement.parse l.text = .ok (.label name) :=
  Row.declared?_eq_some_iff

theorem words_congr (h : labels.consts = labels'.consts) :
    l.words bus labels = l.words bus labels' := by
  simp only [words, Row.words, encode_congr h]

theorem size_congr (h : labels.consts = labels'.consts) :
    l.size bus labels = l.size bus labels' := by
  rw [size, size, words_congr h]

theorem extent_congr (h : labels.consts = labels'.consts) :
    extent bus labels lines = extent bus labels' lines := by
  induction lines with
  | nil => rfl
  | cons l lines ih => rw [extent, extent, size_congr h, ih]

theorem size_of_words {ws : List Word} (h : l.words bus labels = .ok ws) :
    l.size bus labels = ws.length := by
  rw [size, h]

theorem size_of_declared? {name : Text} (h : l.declared? = some name) : l.size bus labels = 0 := by
  have hparse := declared?_eq_some_iff.mp h
  have hwords : l.words bus labels = .ok [] := by simp [words, Row.words, hparse]
  rw [size_of_words hwords, List.length_nil]

theorem exists_of_words {ws : List Word} (h : l.words bus labels = .ok ws) :
    (∃ name, Statement.parse l.text = .ok (.label name) ∧ ws = []) ∨
      ∃ m param, Statement.parse l.text = .ok (.instruction m param) ∧
        encode m param bus labels = .ok ws := by
  simp only [words, Row.words, bind_eq_ok] at h
  obtain ⟨statement, hparse, h⟩ := h
  cases statement with
  | label name => exact .inl ⟨name, hparse, (pure_eq_ok.mp h).symm⟩
  | instruction m param => exact .inr ⟨m, param, hparse, h⟩

theorem extent_cons :
    extent bus labels (l :: lines) = l.size bus labels + extent bus labels lines := rfl

theorem extent_append (before after : List SourceLine) :
    extent bus labels (before ++ after) = extent bus labels before + extent bus labels after := by
  induction before with
  | nil => simp [extent]
  | cons l before ih => rw [List.cons_append, extent, extent, ih, Nat.add_assoc]

end SourceLine

namespace Section

open SourceLine

variable {site : Site} {line : SourceLine} {lines : List SourceLine}

structure Encodable (bus : Bus) (labels : Labels) (body : List SourceLine) : Prop where
  encodes : ∀ line ∈ body, ∃ ws, line.words bus labels = .ok ws
  named : ∀ name ∈ body.filterMap (·.declared?), checkName name = .ok ()
  noConst : ∀ name ∈ body.filterMap (·.declared?), labels.consts.get? name = none
  fresh : ∀ name ∈ body.filterMap (·.declared?), labels.codes.get? name = none
  distinct : (body.filterMap (·.declared?)).Nodup

def Oversteps (bus : Bus) (labels : Labels) (limit cursor : Nat) (line : SourceLine) : Prop :=
  match line.declared? with
  | some _ => limit ≤ cursor
  | none => limit < cursor + line.size bus labels

def Within (bus : Bus) (labels : Labels) (limit cursor : Nat) (lines : List SourceLine) : Prop :=
  ∀ before line after, lines = before ++ line :: after →
    ¬Oversteps bus labels limit (cursor + extent bus labels before) line

def overflowAt (site : Site) (line : SourceLine) : Error :=
  (Fault.overflow site.kind site.limit).onLine (.code site.kind) line.number

theorem oversteps_congr (h : labels.consts = labels'.consts) {limit cursor : Nat} :
    Oversteps bus labels limit cursor line ↔ Oversteps bus labels' limit cursor line := by
  rw [Oversteps, Oversteps, size_congr h]

theorem within_congr (h : labels.consts = labels'.consts) {limit cursor : Nat} :
    Within bus labels limit cursor lines ↔ Within bus labels' limit cursor lines := by
  simp only [Within, oversteps_congr h, extent_congr h]

theorem within_cons {limit cursor : Nat} :
    Within bus labels limit cursor (line :: lines) ↔
      ¬Oversteps bus labels limit cursor line ∧
        Within bus labels limit (cursor + line.size bus labels) lines := by
  constructor
  · intro h
    refine ⟨by simpa [extent] using h [] line lines rfl, ?_⟩
    rintro before line' after rfl
    have := h (line :: before) line' after rfl
    rwa [extent_cons, ← Nat.add_assoc] at this
  · rintro ⟨hline, hrest⟩ before line' after heq
    cases before with
    | nil =>
        obtain ⟨rfl, rfl⟩ := List.cons.inj heq
        simpa [extent] using hline
    | cons _ before =>
        obtain ⟨rfl, rfl⟩ := List.cons.inj heq
        rw [extent_cons, ← Nat.add_assoc]
        exact hrest before line' after rfl

theorem within_append_singleton {limit cursor : Nat} :
    Within bus labels limit cursor (lines ++ [line]) ↔
      Within bus labels limit cursor lines ∧
        ¬Oversteps bus labels limit (cursor + extent bus labels lines) line := by
  induction lines generalizing cursor with
  | nil =>
      rw [List.nil_append, within_cons]
      simp [Within, extent, and_comm]
  | cons l lines ih =>
      rw [List.cons_append, within_cons, within_cons, ih, extent_cons, Nat.add_assoc, and_assoc]

theorem within_iff {limit cursor : Nat} :
    Within bus labels limit cursor lines ↔
      ((∃ line ∈ lines, line.declared? = none) → cursor + extent bus labels lines ≤ limit) ∧
      ∀ before line after, lines = before ++ line :: after → line.declared? ≠ none →
        cursor + extent bus labels before < limit := by
  constructor
  · intro h
    refine ⟨?_, fun before line after heq hname => ?_⟩
    · -- Read from the end: a label there takes no words, an instruction ends where the body does.
      rintro ⟨instruction, hmem, hinstruction⟩
      induction lines using List.reverseRecOn with
      | nil => simp at hmem
      | append_singleton lines last ih =>
          obtain ⟨hlines, hlast⟩ := within_append_singleton.mp h
          rw [extent_append, extent_cons]
          cases hname : last.declared? with
          | none =>
              simp only [Oversteps, hname, Nat.not_lt] at hlast
              simpa [extent, Nat.add_assoc] using hlast
          | some name =>
              have hmem : instruction ∈ lines := by
                rcases List.mem_append.mp hmem with hmem | hmem
                · exact hmem
                · rw [List.mem_singleton.mp hmem, hname] at hinstruction
                  simp at hinstruction
              simpa [size_of_declared? hname, extent] using ih hlines hmem
    · obtain ⟨name, hname⟩ := Option.ne_none_iff_exists'.mp hname
      have := h before line after heq
      simpa only [Oversteps, hname, Nat.not_le] using this
  · rintro ⟨hwords, hnames⟩ before line after rfl
    cases hname : line.declared? with
    | none =>
        have := hwords ⟨line, by simp, hname⟩
        rw [extent_append, extent_cons] at this
        simp only [Oversteps, hname]
        omega
    | some name =>
        have := hnames before line after rfl (by simp [hname])
        simp only [Oversteps, hname]
        omega

namespace Encodable

theorem mem_declared (lines : List SourceLine) {name : Text} (h : line.declared? = some name) :
    name ∈ (line :: lines).filterMap (·.declared?) :=
  List.mem_filterMap.mpr ⟨line, List.mem_cons_self, h⟩

theorem tail {offset : Nat} {labels₁ : Labels} {ws : List Word}
    (h : Encodable bus labels (line :: lines))
    (hline : LineEncodes bus site labels offset line labels₁ ws) : Encodable bus labels₁ lines := by
  have hsub : (lines.filterMap (·.declared?)).Sublist ((line :: lines).filterMap (·.declared?)) :=
    (List.sublist_cons_self line lines).filterMap _
  have hconsts := hline.consts_eq
  refine ⟨fun l hl => ?_, fun name hname => h.named name (hsub.subset hname),
    fun name hname => hconsts ▸ h.noConst name (hsub.subset hname), fun name hname => ?_,
    h.distinct.sublist hsub⟩
  · rw [words_congr hconsts]
    exact h.encodes l (List.mem_cons_of_mem line hl)
  · have hfresh := h.fresh name (hsub.subset hname)
    cases hline with
    | @label other parsed =>
        have hdistinct := h.distinct
        rw [List.filterMap_cons_some (declared?_eq_some_iff.mpr parsed), List.nodup_cons] at hdistinct
        have hne : other ≠ name := by
          rintro rfl
          exact hdistinct.1 hname
        simp [NameTable.get?_append, hfresh, NameTable.get?, hne]
    | instruction => exact hfresh

theorem result_encodeLine {offset : Nat} (h : Encodable bus labels (line :: lines))
    (hover : Oversteps bus labels site.limit (site.base + offset) line) :
    (encodeLine bus site labels offset line).result = .error (overflowAt site line) := by
  obtain ⟨ws, hwords⟩ := h.encodes line List.mem_cons_self
  rcases exists_of_words hwords with ⟨name, hparse, -⟩ | ⟨m, param, hparse, hencode⟩
  · have hname := declared?_eq_some_iff.mpr hparse
    have hnamed := h.named name (mem_declared lines hname)
    simp only [Oversteps, hname] at hover
    simp [encodeLine, hparse, hnamed, hover, overflowAt, Except.mapError]
  · have hname : line.declared? = none := by simp [declared?, Row.declared?, hparse]
    simp only [Oversteps, hname, size_of_words hwords, Nat.add_assoc] at hover
    simp [encodeLine, hparse, hencode, hover, overflowAt, Except.mapError]

theorem exists_lineEncodes {offset : Nat} (h : Encodable bus labels (line :: lines))
    (hwithin : ¬Oversteps bus labels site.limit (site.base + offset) line) :
    ∃ labels₁ ws, LineEncodes bus site labels offset line labels₁ ws ∧
      ws.length = line.size bus labels := by
  obtain ⟨ws, hwords⟩ := h.encodes line List.mem_cons_self
  have hsize := (size_of_words hwords).symm
  rcases exists_of_words hwords with ⟨name, hparse, rfl⟩ | ⟨m, param, hparse, hencode⟩
  · have hname := declared?_eq_some_iff.mpr hparse
    have hmem := mem_declared lines hname
    simp only [Oversteps, hname, Nat.not_le] at hwithin
    exact ⟨_, _, .label hparse (h.named name hmem) hwithin (h.noConst name hmem)
      (h.fresh name hmem), hsize⟩
  · have hname : line.declared? = none := by simp [declared?, Row.declared?, hparse]
    simp only [Oversteps, hname, ← hsize, Nat.add_assoc, Nat.not_lt] at hwithin
    exact ⟨_, _, .instruction hparse hencode hwithin, hsize⟩

theorem exists_encodeLines (offset : Nat) (h : Encodable bus labels lines)
    (hwithin : Within bus labels site.limit (site.base + offset) lines) :
    ∃ x, (encodeLines bus site labels offset lines).result = .ok x := by
  induction lines generalizing labels offset with
  | nil => exact ⟨_, rfl⟩
  | cons line lines ih =>
      obtain ⟨hline, hrest⟩ := within_cons.mp hwithin
      obtain ⟨labels₁, ws, hencodes, hsize⟩ := h.exists_lineEncodes hline
      rw [← hsize, Nat.add_assoc, within_congr hencodes.consts_eq.symm] at hrest
      obtain ⟨x, hx⟩ := ih _ (h.tail hencodes) hrest
      exact ⟨_, encodeLines_eq_ok_iff.mpr (.cons hencodes (encodeLines_eq_ok_iff.mp hx))⟩

theorem result_encodeLines (offset : Nat) {before after : List SourceLine}
    (h : Encodable bus labels (before ++ line :: after))
    (hwithin : Within bus labels site.limit (site.base + offset) before)
    (hover : Oversteps bus labels site.limit (site.base + offset + extent bus labels before) line) :
    (encodeLines bus site labels offset (before ++ line :: after)).result =
      .error (overflowAt site line) := by
  induction before generalizing labels offset with
  | nil =>
      have hline := h.result_encodeLine (by simpa [extent] using hover)
      simp [encodeLines, hline]
  | cons first before ih =>
      obtain ⟨hfirst, hrest⟩ := within_cons.mp hwithin
      obtain ⟨labels₁, ws, hencodes, hsize⟩ := h.exists_lineEncodes hfirst
      have hconsts := hencodes.consts_eq.symm
      rw [← hsize, Nat.add_assoc, within_congr hconsts] at hrest
      rw [extent_cons, ← hsize, ← Nat.add_assoc, Nat.add_assoc _ offset, oversteps_congr hconsts,
        extent_congr hconsts] at hover
      have hlater := ih _ (h.tail hencodes) hrest hover
      simp [encodeLines, encodeLine_eq_ok_iff.mpr hencodes, hlater]

end Encodable

theorem exists_first_overstep {limit cursor : Nat}
    (h : ¬Within bus labels limit cursor lines) :
    ∃ before line after, lines = before ++ line :: after ∧
      Within bus labels limit cursor before ∧
      Oversteps bus labels limit (cursor + extent bus labels before) line := by
  induction lines generalizing cursor with
  | nil => exact absurd (by simp [Within]) h
  | cons line lines ih =>
      by_cases hover : Oversteps bus labels limit cursor line
      · exact ⟨[], line, lines, rfl, by simp [Within], by simpa [extent] using hover⟩
      · have hrest : ¬Within bus labels limit (cursor + line.size bus labels) lines :=
          fun hrest => h (within_cons.mpr ⟨hover, hrest⟩)
        obtain ⟨before, line', after, rfl, hbefore, hover'⟩ := ih hrest
        refine ⟨line :: before, line', after, rfl, within_cons.mpr ⟨hover, hbefore⟩, ?_⟩
        rwa [extent_cons, ← Nat.add_assoc]

theorem encode_capacity {body : List SourceLine} (site : Site) (h : Encodable bus labels body) :
    ((∃ x, (encode bus site labels body).result = .ok x) ↔
      ((∃ line ∈ body, line.declared? = none) →
        site.base + extent bus labels body ≤ site.limit) ∧
      ∀ before line after, body = before ++ line :: after → line.declared? ≠ none →
        site.base + extent bus labels before < site.limit) ∧
    ((¬∃ x, (encode bus site labels body).result = .ok x) →
      ∃ before line after, body = before ++ line :: after ∧
        Within bus labels site.limit site.base before ∧
        Oversteps bus labels site.limit (site.base + extent bus labels before) line ∧
        (encode bus site labels body).result = .error (overflowAt site line)) := by
  have hok : Within bus labels site.limit site.base body →
      ∃ x, (encode bus site labels body).result = .ok x := by
    intro hwithin
    obtain ⟨⟨labels', words, rows⟩, hx⟩ := h.exists_encodeLines 0 hwithin
    exact ⟨_, encode_eq_ok_iff.mpr ⟨words, rows, encodeLines_eq_ok_iff.mp hx, rfl⟩⟩
  have herror : ¬Within bus labels site.limit site.base body →
      ∃ before line after, body = before ++ line :: after ∧
        Within bus labels site.limit site.base before ∧
        Oversteps bus labels site.limit (site.base + extent bus labels before) line ∧
        (encode bus site labels body).result = .error (overflowAt site line) := by
    intro hover
    obtain ⟨before, line, after, rfl, hbefore, hline⟩ := exists_first_overstep hover
    have hlines := h.result_encodeLines 0 hbefore hline
    exact ⟨before, line, after, rfl, hbefore, hline, by simp [encode, hlines]⟩
  rw [← within_iff]
  refine ⟨⟨?_, hok⟩, fun hno => herror fun hwithin => hno (hok hwithin)⟩
  rintro ⟨x, hx⟩
  by_contra hover
  obtain ⟨before, line, after, -, -, -, hresult⟩ := herror hover
  simp [hresult] at hx

def brimBody : List SourceLine :=
  [⟨5, "START:".toList⟩, ⟨6, "NOP".toList⟩, ⟨7, "JMP START".toList⟩, ⟨8, "BRIM:".toList⟩]

theorem encode_capacity_brimBody :
    Encodable sampleBus .empty brimBody ∧
      (∃ x, (encode sampleBus ⟨.main, 251, mainEnd⟩ .empty brimBody).result = .ok x) ∧
      ∃ before line after, brimBody = before ++ line :: after ∧
        (encode sampleBus ⟨.main, 252, mainEnd⟩ .empty brimBody).result =
          .error (overflowAt ⟨.main, 252, mainEnd⟩ line) := by
  have hencodes : ∀ line ∈ brimBody,
      (line.words sampleBus .empty).toOption.isSome = true := by decide +kernel
  have h : Encodable sampleBus .empty brimBody := by
    refine ⟨fun line hline => ?_, by decide, by decide, by decide, by decide⟩
    obtain ⟨ws, hws⟩ := Option.isSome_iff_exists.mp (hencodes line hline)
    exact ⟨ws, toOption_eq_some.mp hws⟩
  have hextent : extent sampleBus .empty brimBody = 4 := by decide +kernel
  have hfront : extent sampleBus .empty (brimBody.take 3) = 4 := by decide +kernel
  refine ⟨h, (encode_capacity ⟨.main, 251, mainEnd⟩ h).1.mpr
    ⟨fun _ => ?_, fun before line after heq _ => ?_⟩, ?_⟩
  · rw [hextent]
    decide
  · rw [heq, extent_append] at hextent
    have : mainEnd = 256 := rfl
    dsimp only
    omega
  · obtain ⟨hiff, herror⟩ := encode_capacity ⟨.main, 252, mainEnd⟩ h
    obtain ⟨before, line, after, heq, -, -, hresult⟩ := herror fun hok => by
      have := (hiff.mp hok).2 (brimBody.take 3) _ [] rfl (by decide)
      rw [hfront] at this
      exact absurd this (by decide)
    exact ⟨before, line, after, heq, hresult⟩

end Section

end CrossAssembler
