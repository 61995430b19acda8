import CrossAssembler.Section.Encode
import CrossAssembler.Proofs.Labels.Table

namespace CrossAssembler.Section

open Outcome

variable {bus : Bus} {site : Site}

inductive LineEncodes (bus : Bus) (site : Site) (labels : Labels) (offset : Nat)
    (line : SourceLine) : Labels → List Word → Prop
  | label {name : Text} (parsed : Statement.parse line.text = .ok (.label name))
      (named : checkName name = .ok ()) (room : site.base + offset < site.limit)
      (noConst : labels.consts.get? name = none) (fresh : labels.codes.get? name = none) :
      LineEncodes bus site labels offset line
        { labels with
          codes := labels.codes ++ [(name, ⟨line.number, site.kind, site.base + offset⟩)] } []
  | instruction {mnemonic : Mnemonic} {param : Text} {words : List Word}
      (parsed : Statement.parse line.text = .ok (.instruction mnemonic param))
      (encoded : CrossAssembler.encode mnemonic param bus labels = .ok words)
      (room : site.base + (offset + words.length) ≤ site.limit) :
      LineEncodes bus site labels offset line labels words

theorem encodeLine_eq_ok_iff {labels labels' : Labels} {offset : Nat} {line : SourceLine}
    {words : List Word} :
    (encodeLine bus site labels offset line).result = .ok (labels', words) ↔
      LineEncodes bus site labels offset line labels' words := by
  simp only [encodeLine, Traced.result_mapError, mapError_eq_ok, Traced.result_bind,
    Traced.result_ofExcept, bind_eq_ok]
  constructor
  · rintro ⟨statement, parsed, h⟩
    cases statement with
    | label name =>
        simp only [Traced.result_bind, Traced.result_ofExcept, bind_eq_ok] at h
        obtain ⟨_, named, h⟩ := h
        split at h
        · simp at h
        · rename_i room
          simp only [Traced.result_bind, bind_eq_ok, Labels.bind_eq_ok_iff, Traced.result_pure,
            Except.ok.injEq, Prod.mk.injEq] at h
          obtain ⟨_, ⟨noConst, fresh, rfl⟩, rfl, rfl⟩ := h
          exact .label parsed named (Nat.not_le.mp room) noConst fresh
    | instruction mnemonic param =>
        simp only [Traced.result_bind, Traced.result_ofExcept, bind_eq_ok] at h
        obtain ⟨ws, encoded, h⟩ := h
        split at h
        · simp at h
        · rename_i room
          simp only [Traced.result_pure, Except.ok.injEq, Prod.mk.injEq] at h
          obtain ⟨rfl, rfl⟩ := h
          exact .instruction parsed encoded (Nat.not_lt.mp room)
  · intro h
    cases h with
    | @label name parsed named room noConst fresh =>
        refine ⟨_, parsed, ?_⟩
        have hbind : (labels.bind name line.number site.kind (site.base + offset)).result = .ok _ :=
          Labels.bind_eq_ok_iff.mpr ⟨noConst, fresh, rfl⟩
        simp [named, Nat.not_le.mpr room, hbind]
    | @instruction mnemonic param words parsed encoded room =>
        refine ⟨_, parsed, ?_⟩
        simp [encoded, Nat.not_lt.mpr room]

inductive BodyEncodes (bus : Bus) (site : Site) :
    Labels → Nat → List SourceLine → Labels → List Word → List Row → Prop
  | nil (labels : Labels) (offset : Nat) : BodyEncodes bus site labels offset [] labels [] []
  | cons {labels labels₁ labels₂ : Labels} {offset : Nat} {line : SourceLine}
      {lines : List SourceLine} {words more : List Word} {rows : List Row}
      (head : LineEncodes bus site labels offset line labels₁ words)
      (tail : BodyEncodes bus site labels₁ (offset + words.length) lines labels₂ more rows) :
      BodyEncodes bus site labels offset (line :: lines) labels₂ (words ++ more)
        (⟨line.number, offset, words.length, line.text⟩ :: rows)

theorem encodeLines_eq_ok_iff {labels labels' : Labels} {offset : Nat} {lines : List SourceLine}
    {words : List Word} {rows : List Row} :
    (encodeLines bus site labels offset lines).result = .ok (labels', words, rows) ↔
      BodyEncodes bus site labels offset lines labels' words rows := by
  induction lines generalizing labels offset words rows with
  | nil =>
      simp only [encodeLines, Traced.result_pure, Except.ok.injEq, Prod.mk.injEq]
      constructor
      · rintro ⟨rfl, rfl, rfl⟩
        exact .nil labels offset
      · intro h
        cases h
        exact ⟨rfl, rfl, rfl⟩
  | cons line lines ih =>
      simp only [encodeLines, Traced.result_bind, bind_eq_ok, Traced.result_pure, Except.ok.injEq,
        Prod.mk.injEq, Prod.exists]
      constructor
      · rintro ⟨labels₁, ws, hline, labels₂, more, rs, hlines, rfl, rfl, rfl⟩
        exact .cons (encodeLine_eq_ok_iff.mp hline) (ih.mp hlines)
      · intro h
        cases h with
        | cons head tail =>
            exact ⟨_, _, encodeLine_eq_ok_iff.mpr head, _, _, _, ih.mpr tail, rfl, rfl, rfl⟩

theorem encode_eq_ok_iff {labels labels' : Labels} {body : List SourceLine} {s : Section} :
    (encode bus site labels body).result = .ok (labels', s) ↔
      ∃ words rows, BodyEncodes bus site labels 0 body labels' words rows ∧
        s = { kind := site.kind, base := site.base, words, rows } := by
  simp only [encode, Traced.result_bind, bind_eq_ok, Traced.result_tell, Traced.result_pure,
    Except.ok.injEq, Prod.mk.injEq, Prod.exists, encodeLines_eq_ok_iff]
  constructor
  · rintro ⟨_, words, rows, hbody, -, -, rfl, rfl⟩
    exact ⟨words, rows, hbody, rfl⟩
  · rintro ⟨words, rows, hbody, rfl⟩
    exact ⟨_, words, rows, hbody, (), trivial, rfl, rfl⟩

theorem orgBase_eq_ok_iff {location : Text} {base : Nat} :
    orgBase location bus = .ok base ↔
      ∃ l, Literal.parse? location = some l ∧ l.fits bus.address = true ∧ l.value = base := by
  unfold orgBase
  cases Literal.parse? location with
  | none => simp
  | some l => by_cases hfits : l.fits bus.address = true <;> simp [hfits]

theorem LineEncodes.fits {labels labels' : Labels} {offset : Nat} {line : SourceLine}
    {words : List Word} (h : LineEncodes bus site labels offset line labels' words) :
    words = [] ∨ site.base + (offset + words.length) ≤ site.limit := by
  cases h with
  | label => exact .inl rfl
  | instruction _ _ room => exact .inr room

theorem BodyEncodes.fits {labels labels' : Labels} {offset : Nat} {lines : List SourceLine}
    {words : List Word} {rows : List Row}
    (h : BodyEncodes bus site labels offset lines labels' words rows) :
    words = [] ∨ site.base + (offset + words.length) ≤ site.limit := by
  induction h with
  | nil => exact .inl rfl
  | @cons _ _ _ offset _ _ words more _ head _ ih =>
      rcases ih with rfl | hmore
      · simpa using head.fits
      · right
        rw [List.length_append]
        omega

end CrossAssembler.Section
