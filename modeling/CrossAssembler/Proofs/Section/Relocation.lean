import CrossAssembler.Proofs.Bus
import CrossAssembler.Proofs.Section.Freshness

namespace CrossAssembler.Section

variable {bus : Bus} {site site' : Site} {labels labels' other other' : Labels} {offset : Nat}
  {line : SourceLine} {lines : List SourceLine} {words words' : List Word} {rows rows' : List Row}

theorem LineEncodes.constant?_eq (h : LineEncodes bus site labels offset line labels' words)
    (name : Text) : labels'.constant? name = labels.constant? name := by
  rw [Labels.constant?, Labels.constant?, h.consts_eq]

theorem LineEncodes.words_unique (hconst : ∀ name, labels.constant? name = other.constant? name)
    (h : LineEncodes bus site labels offset line labels' words)
    (h' : LineEncodes bus site' other offset line other' words') : words = words' := by
  cases h with
  | label parsed =>
      cases h' with
      | label => rfl
      | instruction parsed' => simp [parsed] at parsed'
  | instruction parsed encoded =>
      cases h' with
      | label parsed' => simp [parsed] at parsed'
      | instruction parsed' encoded' =>
          obtain ⟨rfl, rfl⟩ : _ ∧ _ := by simpa [parsed] using parsed'
          rw [encode_eq_of_constant? hconst, encoded'] at encoded
          exact (Except.ok.inj encoded).symm

theorem BodyEncodes.unique (hconst : ∀ name, labels.constant? name = other.constant? name)
    (h : BodyEncodes bus site labels offset lines labels' words rows)
    (h' : BodyEncodes bus site' other offset lines other' words' rows') :
    words = words' ∧ rows = rows' := by
  induction h generalizing other other' words' rows' with
  | nil =>
      cases h'
      exact ⟨rfl, rfl⟩
  | cons head _ ih =>
      cases h' with
      | cons head' tail' =>
          obtain rfl := head.words_unique hconst head'
          have hconst' := fun name => (head.constant?_eq name).trans
            ((hconst name).trans (head'.constant?_eq name).symm)
          obtain ⟨rfl, rfl⟩ := ih hconst' tail'
          exact ⟨rfl, rfl⟩

theorem BodyEncodes.exists_label_row (h : BodyEncodes bus site labels offset lines labels' words rows)
    (hline : line ∈ lines) {name : Text} (hparse : Statement.parse line.text = .ok (.label name)) :
    ∃ o, ⟨line.number, o, 0, line.text⟩ ∈ rows := by
  induction h with
  | nil => simp at hline
  | @cons _ _ _ offset _ _ _ _ _ head _ ih =>
      rcases List.mem_cons.mp hline with rfl | hline
      · cases head with
        | label => exact ⟨offset, List.mem_cons_self⟩
        | instruction parsed => simp [parsed] at hparse
      · obtain ⟨o, ho⟩ := ih hline
        exact ⟨o, List.mem_cons_of_mem _ ho⟩

theorem BodyEncodes.get?_codes (h : BodyEncodes bus site labels offset lines labels' words rows)
    {r : Row} {name : Text} (hr : r ∈ rows) (hname : r.declared? = some name) :
    labels'.codes.get? name = some ⟨r.line, site.kind, site.base + r.offset⟩ := by
  have hdeclared : name ∈ rows.filterMap (·.declared?) := List.mem_filterMap.mpr ⟨r, hr, hname⟩
  have hfresh := NameTable.get?_eq_none_iff.mpr (h.names_fresh hdeclared)
  have hdistinct := h.names_distinct
  rw [← map_fst_declarationsAt site.kind site.base] at hdistinct
  rw [h.codes_eq, NameTable.get?_append, hfresh, Option.none_or,
    NameTable.get?_eq_some_iff_mem hdistinct]
  exact mem_declarations (s := ⟨site.kind, site.base, words, rows⟩).mpr ⟨r, hr, hname, rfl⟩

theorem BodyEncodes.get?_codes_of_bound
    (h : BodyEncodes bus site labels offset lines labels' words rows) {name : Text} {c : CodeLabel}
    (hbound : labels.codes.get? name = some c) : labels'.codes.get? name = some c := by
  rw [h.codes_eq, NameTable.get?_append, hbound, Option.some_or]

theorem encode_relocation {body : List SourceLine} {s t : Section}
    (hconst : ∀ name, labels.constant? name = other.constant? name)
    (hs : (encode bus site labels body).result = .ok (labels', s))
    (ht : (encode bus site' other body).result = .ok (other', t)) :
    s.words = t.words ∧ s.rows = t.rows ∧
    (∀ line ∈ body, ∀ name, Statement.parse line.text = .ok (.label name) →
      ∃ o, ⟨line.number, o, 0, line.text⟩ ∈ s.rows ∧
        labels'.codes.get? name = some ⟨line.number, site.kind, site.base + o⟩ ∧
        other'.codes.get? name = some ⟨line.number, site'.kind, site'.base + o⟩) ∧
    (∀ name c, labels.codes.get? name = some c → labels'.codes.get? name = some c) ∧
    (∀ name c, other.codes.get? name = some c → other'.codes.get? name = some c) := by
  obtain ⟨words, rows, hbody, rfl⟩ := encode_eq_ok_iff.mp hs
  obtain ⟨words', rows', hbody', rfl⟩ := encode_eq_ok_iff.mp ht
  obtain ⟨rfl, rfl⟩ := hbody.unique hconst hbody'
  refine ⟨rfl, rfl, fun line hline name hparse => ?_, fun name c => hbody.get?_codes_of_bound,
    fun name c => hbody'.get?_codes_of_bound⟩
  obtain ⟨o, hrow⟩ := hbody.exists_label_row hline hparse
  have hname := Row.declared?_eq_some_iff (r := ⟨line.number, o, 0, line.text⟩).mpr hparse
  exact ⟨o, hrow, hbody.get?_codes hrow hname, hbody'.get?_codes hrow hname⟩

def loopBody : List SourceLine :=
  [⟨6, "START:".toList⟩, ⟨7, "LDA #STEP".toList⟩, ⟨8, "JMP DONE".toList⟩, ⟨9, "DONE:".toList⟩,
    ⟨10, "JMP START".toList⟩]

def stepLabels : Labels :=
  { consts := [("STEP".toList, ⟨2, ⟨.dec, 3⟩⟩)] }

def farLabels : Labels :=
  { stepLabels with codes := [("FAR".toList, ⟨4, .main, 7⟩)] }

theorem encode_relocation_loopBody :
    ∃ labels' s other' t,
      (encode sampleBus ⟨.main, 0, mainEnd⟩ stepLabels loopBody).result = .ok (labels', s) ∧
      (encode sampleBus ⟨.org "$400".toList, 0x400, 0xFFFF⟩ farLabels loopBody).result =
        .ok (other', t) ∧
      s.words = t.words ∧ s.rows = t.rows ∧
      (∃ o, labels'.codes.get? "DONE".toList = some ⟨9, .main, 0 + o⟩ ∧
        other'.codes.get? "DONE".toList = some ⟨9, .org "$400".toList, 0x400 + o⟩) ∧
      other'.codes.get? "FAR".toList = some ⟨4, .main, 7⟩ := by
  have hs : (encode sampleBus ⟨.main, 0, mainEnd⟩ stepLabels loopBody).result.toOption.isSome =
      true := by decide +kernel
  have ht : (encode sampleBus ⟨.org "$400".toList, 0x400, 0xFFFF⟩ farLabels
      loopBody).result.toOption.isSome = true := by decide +kernel
  obtain ⟨⟨labels', s⟩, hs⟩ := Option.isSome_iff_exists.mp hs
  obtain ⟨⟨other', t⟩, ht⟩ := Option.isSome_iff_exists.mp ht
  rw [Outcome.toOption_eq_some] at hs ht
  have hconst : ∀ name, stepLabels.constant? name = farLabels.constant? name := fun _ => rfl
  obtain ⟨hwords, hrows, hlabels, -, hbefore⟩ := encode_relocation hconst hs ht
  obtain ⟨o, -, hdone, hdone'⟩ :=
    hlabels ⟨9, "DONE:".toList⟩ (by decide) "DONE".toList (by decide)
  exact ⟨labels', s, other', t, hs, ht, hwords, hrows, ⟨o, hdone, hdone'⟩, hbefore _ _ (by decide)⟩

end CrossAssembler.Section
