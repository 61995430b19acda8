import CrossAssembler.Proofs.Section.Encoding
import CrossAssembler.Proofs.Statement.Encoding

namespace CrossAssembler

open Outcome

variable {bus : Bus} {labels labels' final : Labels}

namespace Row

def words (bus : Bus) (labels : Labels) (r : Row) : Except Fault (List Word) := do
  match ← Statement.parse r.code with
  | .label _ => return []
  | .instruction mnemonic param => encode mnemonic param bus labels

def source (r : Row) : SourceLine :=
  ⟨r.line, r.code⟩

def wordCount : List Row → Nat
  | [] => 0
  | r :: rows => r.size + wordCount rows

def declared? (r : Row) : Option Text :=
  match Statement.parse r.code with
  | .ok (.label name) => some name
  | _ => none

theorem declared?_eq_some_iff {r : Row} {name : Text} :
    r.declared? = some name ↔ Statement.parse r.code = .ok (.label name) := by
  unfold declared?
  split <;> simp_all

theorem covers_iff {r : Row} {offset : Nat} :
    r.covers offset = true ↔ r.offset ≤ offset ∧ offset < r.offset + r.size := by
  simp [covers]

end Row

inductive Listed (bus : Bus) (labels : Labels) : Nat → List Row → List Word → Prop
  | nil (offset : Nat) : Listed bus labels offset [] []
  | cons {offset : Nat} {r : Row} {rows : List Row} {ws more : List Word}
      (starts : r.offset = offset) (emitted : r.words bus labels = .ok ws)
      (size : r.size = ws.length) (tail : Listed bus labels (offset + ws.length) rows more) :
      Listed bus labels offset (r :: rows) (ws ++ more)

namespace Listed

theorem append {offset : Nat} {before after : List Row} {words : List Word}
    (h : Listed bus labels offset (before ++ after) words) :
    ∃ front back, words = front ++ back ∧ Listed bus labels offset before front ∧
      Listed bus labels (offset + front.length) after back := by
  induction before generalizing offset words with
  | nil => exact ⟨[], words, rfl, .nil offset, h⟩
  | cons r before ih =>
      cases h with
      | cons starts emitted size tail =>
          obtain ⟨front, back, rfl, hfront, hback⟩ := ih tail
          refine ⟨_, back, (List.append_assoc _ _ _).symm, .cons starts emitted size hfront, ?_⟩
          rw [List.length_append, ← Nat.add_assoc]
          exact hback

theorem length_words {offset : Nat} {rows : List Row} {words : List Word}
    (h : Listed bus labels offset rows words) : words.length = Row.wordCount rows := by
  induction h with
  | nil => rfl
  | cons _ _ size _ ih => rw [List.length_append, Row.wordCount, size, ih]

theorem offset_eq {offset : Nat} {before after : List Row} {r : Row} {words : List Word}
    (h : Listed bus labels offset (before ++ r :: after) words) :
    r.offset = offset + Row.wordCount before := by
  obtain ⟨front, back, -, hfront, hback⟩ := h.append
  rw [← hfront.length_words]
  cases hback with
  | cons starts => exact starts

theorem offset_add_size_le {offset : Nat} {rows : List Row} {r : Row} {words : List Word}
    (h : Listed bus labels offset rows words) (hr : r ∈ rows) :
    r.offset + r.size ≤ offset + words.length := by
  obtain ⟨before, after, rfl⟩ := List.append_of_mem hr
  obtain ⟨front, back, rfl, -, hback⟩ := h.append
  cases hback with
  | cons starts _ size _ =>
      simp only [List.length_append]
      omega

theorem getElem?_words {offset : Nat} {rows : List Row} {r : Row} {words : List Word}
    (h : Listed bus labels offset rows words) (hr : r ∈ rows) :
    ∃ ws, r.words bus labels = .ok ws ∧ r.size = ws.length ∧ offset ≤ r.offset ∧
      ∀ k < ws.length, words[r.offset - offset + k]? = ws[k]? := by
  obtain ⟨before, after, rfl⟩ := List.append_of_mem hr
  obtain ⟨front, back, rfl, -, hback⟩ := h.append
  cases hback with
  | @cons _ _ _ ws more starts emitted size tail =>
      refine ⟨ws, emitted, size, by omega, fun k hk => ?_⟩
      rw [show r.offset - offset + k = front.length + k by omega, List.getElem?_append_right
        (Nat.le_add_right _ _), Nat.add_sub_cancel_left, List.getElem?_append_left hk]

theorem words_eq_slice {offset : Nat} {rows : List Row} {r : Row} {words : List Word}
    (h : Listed bus labels offset rows words) (hr : r ∈ rows) :
    r.words bus labels = .ok ((words.drop (r.offset - offset)).take r.size) := by
  obtain ⟨before, after, rfl⟩ := List.append_of_mem hr
  obtain ⟨front, back, rfl, -, hback⟩ := h.append
  cases hback with
  | cons starts emitted size tail =>
      rw [emitted, starts, Nat.add_sub_cancel_left, List.drop_left, size, List.take_left]

theorem exists_row {offset : Nat} {rows : List Row} {words : List Word}
    (h : Listed bus labels offset rows words) {k : Nat} (hk : k < words.length) :
    ∃ r ∈ rows, r.offset ≤ offset + k ∧ offset + k < r.offset + r.size := by
  induction h generalizing k with
  | nil => simp at hk
  | @cons offset r rows ws more starts emitted size tail ih =>
      by_cases hin : k < ws.length
      · exact ⟨r, List.mem_cons_self, by omega, by omega⟩
      · rw [List.length_append] at hk
        obtain ⟨r', hr', hle, hlt⟩ := ih (k := k - ws.length) (by omega)
        exact ⟨r', List.mem_cons_of_mem r hr', by omega, by omega⟩

end Listed

namespace Section

variable {site : Site}

theorem LineEncodes.consts_eq {offset : Nat} {line : SourceLine} {words : List Word}
    (h : LineEncodes bus site labels offset line labels' words) :
    labels'.consts = labels.consts := by
  cases h <;> rfl

theorem BodyEncodes.consts_eq {offset : Nat} {lines : List SourceLine} {words : List Word}
    {rows : List Row} (h : BodyEncodes bus site labels offset lines labels' words rows) :
    labels'.consts = labels.consts := by
  induction h with
  | nil => rfl
  | cons head _ ih => rw [ih, head.consts_eq]

theorem BodyEncodes.listed {offset : Nat} {lines : List SourceLine} {words : List Word}
    {rows : List Row} (h : BodyEncodes bus site labels offset lines labels' words rows)
    (hconsts : labels.consts = final.consts) : Listed bus final offset rows words := by
  induction h with
  | nil => exact .nil _
  | @cons labels labels₁ _ offset line _ ws _ _ head _ ih =>
      refine .cons rfl ?_ rfl (ih (head.consts_eq.trans hconsts))
      cases head with
      | label parsed => simp [Row.words, parsed]
      | instruction parsed encoded =>
          rw [encode_congr hconsts] at encoded
          simpa [Row.words, parsed] using encoded

def declarationsAt (kind : SectionKind) (base : Nat) (rows : List Row) : NameTable CodeLabel :=
  rows.filterMap fun r => r.declared?.map fun name => (name, ⟨r.line, kind, base + r.offset⟩)

def declarations (s : Section) : NameTable CodeLabel :=
  declarationsAt s.kind s.base s.rows

theorem mem_declarations {s : Section} {name : Text} {c : CodeLabel} :
    (name, c) ∈ s.declarations ↔
      ∃ r ∈ s.rows, r.declared? = some name ∧ c = ⟨r.line, s.kind, s.base + r.offset⟩ := by
  simp only [declarations, declarationsAt, List.mem_filterMap, Option.map_eq_some_iff,
    Prod.mk.injEq]
  constructor
  · rintro ⟨r, hr, _, hname, rfl, rfl⟩
    exact ⟨r, hr, hname, rfl⟩
  · rintro ⟨r, hr, hname, rfl⟩
    exact ⟨r, hr, name, hname, rfl, rfl⟩

theorem map_fst_declarations (s : Section) :
    s.declarations.map Prod.fst = s.rows.filterMap (·.declared?) := by
  simp only [declarations, declarationsAt, List.map_filterMap, Option.map_map]
  congr 1
  funext r
  cases r.declared? <;> rfl

theorem BodyEncodes.codes_eq {offset : Nat} {lines : List SourceLine} {words : List Word}
    {rows : List Row} (h : BodyEncodes bus site labels offset lines labels' words rows) :
    labels'.codes = labels.codes ++ declarationsAt site.kind site.base rows := by
  induction h with
  | nil => simp [declarationsAt]
  | cons head _ ih =>
      rw [ih]
      cases head with
      | label parsed =>
          simp [declarationsAt, Row.declared?, parsed]
      | instruction parsed => simp [declarationsAt, Row.declared?, parsed]

theorem BodyEncodes.map_source {offset : Nat} {lines : List SourceLine} {words : List Word}
    {rows : List Row} (h : BodyEncodes bus site labels offset lines labels' words rows) :
    rows.map Row.source = lines := by
  induction h with
  | nil => rfl
  | cons _ _ ih =>
      rw [List.map_cons, ih]
      rfl

theorem BodyEncodes.names_nodup {offset : Nat} {lines : List SourceLine} {words : List Word}
    {rows : List Row} (h : BodyEncodes bus site labels offset lines labels' words rows)
    (hnodup : (labels.codes.map Prod.fst).Nodup) : (labels'.codes.map Prod.fst).Nodup := by
  induction h with
  | nil => exact hnodup
  | cons head _ ih =>
      apply ih
      cases head with
      | label _ _ _ _ fresh =>
          rw [NameTable.get?_eq_none_iff] at fresh
          rw [List.map_append, List.nodup_append]
          refine ⟨hnodup, by simp, ?_⟩
          rintro other hother _ hname rfl
          simp only [List.map_cons, List.map_nil, List.mem_singleton] at hname
          subst hname
          exact fresh hother
      | instruction => exact hnodup

theorem BodyEncodes.declared_ok {offset : Nat} {lines : List SourceLine} {words : List Word}
    {rows : List Row} (h : BodyEncodes bus site labels offset lines labels' words rows)
    {r : Row} {name : Text} (hr : r ∈ rows) (hname : r.declared? = some name) :
    checkName name = .ok () ∧ labels.consts.get? name = none ∧
      site.base + r.offset < site.limit := by
  induction h with
  | nil => simp at hr
  | @cons _ _ _ _ line _ ws _ _ head _ ih =>
      rcases List.mem_cons.mp hr with rfl | hr
      · rw [Row.declared?_eq_some_iff] at hname
        cases head with
        | label parsed named room noConst =>
            obtain rfl : _ = name := by simpa [parsed] using hname
            exact ⟨named, noConst, room⟩
        | instruction parsed => simp [parsed] at hname
      · rw [← head.consts_eq]
        exact ih hr

end Section

end CrossAssembler
