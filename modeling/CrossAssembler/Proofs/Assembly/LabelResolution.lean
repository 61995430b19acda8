import CrossAssembler.Proofs.Assembly.ImageContent
import CrossAssembler.Proofs.Assembly.Parts
import CrossAssembler.Proofs.Assembly.Symbols

namespace CrossAssembler

open Outcome Section

variable {bus : Bus} {pad : Bool} {raw : Text} {a : Assembly} {labels : Labels}

def Row.RefersTo (labels : Labels) (r : Row) (name : Text) : Prop :=
  ∃ mnemonic, Statement.parse r.code = .ok (.instruction mnemonic name) ∧
    Operand.parse mnemonic name labels = .ok (.label name)

def Half.place : Half → Nat
  | .low => 1
  | .high => 2

theorem Word.resolve_label_eq_ok {name : Text} {half : Half} {n : Nat} :
    (Word.label name half).resolve bus labels = .ok n ↔
      ∃ addr, labels.address? name = some addr ∧
        n = match half with
          | .low => (bus.split addr).1
          | .high => (bus.split addr).2 := by
  cases haddr : labels.address? name with
  | none => simp [Word.resolve, haddr]
  | some addr => cases half <;> simp [Word.resolve, haddr, eq_comm]

namespace Row

variable {r : Row} {ws : List Word} {name : Text}

theorem RefersTo.words_eq (href : r.RefersTo labels name) (hws : r.words bus labels = .ok ws) :
    ∃ op, ws = [.value op, .label name .low, .label name .high] := by
  obtain ⟨m, hparse, hoperand⟩ := href
  simp only [words, hparse, ok_bind] at hws
  cases encode_eq_ok_iff.mp hws with
  | implied => simp [Operand.parse_nil] at hoperand
  | immediate _ parsed => simp [parsed] at hoperand
  | zeroPage _ parsed => simp [parsed] at hoperand
  | absolute _ parsed => simp [parsed] at hoperand
  | label => exact ⟨_, rfl⟩

theorem refersTo_of_getElem? {k : Nat} {half : Half} (hws : r.words bus labels = .ok ws)
    (hk : ws[k]? = some (.label name half)) : r.RefersTo labels name ∧ k = half.place := by
  simp only [words, bind_eq_ok] at hws
  obtain ⟨statement, hparse, hws⟩ := hws
  cases statement with
  | label _ =>
      obtain rfl := pure_eq_ok.mp hws
      simp at hk
  | instruction m param =>
      cases encode_eq_ok_iff.mp hws with
      | implied => exact absurd (List.mem_of_getElem? hk) (by simp)
      | immediate => exact absurd (List.mem_of_getElem? hk) (by simp)
      | zeroPage => exact absurd (List.mem_of_getElem? hk) (by simp)
      | absolute => exact absurd (List.mem_of_getElem? hk) (by simp)
      | label _ parsed =>
          rcases k with _ | _ | _ | k
          · simp at hk
          · obtain ⟨rfl, rfl⟩ : param = name ∧ Half.low = half := by simpa using hk
            exact ⟨⟨m, hparse, parsed⟩, rfl⟩
          · obtain ⟨rfl, rfl⟩ : param = name ∧ Half.high = half := by simpa using hk
            exact ⟨⟨m, hparse, parsed⟩, rfl⟩
          · simp at hk

end Row

namespace Run

theorem declaration_unique (run : Run bus pad raw a) {i j i' j' : Nat} {s s' : Section} {r r' : Row}
    {name : Text} (hi : a.sections[i]? = some s) (hj : s.rows[j]? = some r)
    (hr : r.declared? = some name) (hi' : a.sections[i']? = some s') (hj' : s'.rows[j']? = some r')
    (hr' : r'.declared? = some name) : i' = i ∧ j' = j := by
  have hnames : (a.sections.flatMap fun s => s.rows.filterMap (·.declared?)).Nodup := by
    rw [(run.perm_sections.flatMap_right _).nodup_iff]
    have := run.names_nodup
    rw [run.codes_eq, List.map_flatMap] at this
    simpa only [map_fst_declarations] using this
  obtain ⟨hrows, hsections⟩ := List.nodup_flatMap.mp hnames
  have hmem : ∀ {t : Section} {k : Nat} {q : Row}, t.rows[k]? = some q → q.declared? = some name →
      name ∈ t.rows.filterMap (·.declared?) :=
    fun hk hq => List.mem_filterMap.mpr ⟨_, List.mem_of_getElem? hk, hq⟩
  obtain rfl : i' = i := by
    refine Sequence.index_unique (P := fun t => name ∈ t.rows.filterMap (·.declared?))
      (hsections.imp ?_) hi (hmem hj hr) hi' (hmem hj' hr')
    intro t t' hdisjoint ht ht'
    exact hdisjoint ht ht'
  obtain rfl : s' = s := Option.some.inj (hi'.symm.trans hi)
  refine ⟨rfl, Sequence.index_unique (P := fun q => q.declared? = some name) ?_ hj hr hj' hr'⟩
  have := List.pairwise_filterMap.mp (hrows s' (List.mem_of_getElem? hi))
  refine this.imp ?_
  intro q q' hne hq hq'
  exact hne name hq name hq' rfl

theorem offset_eq_sum (run : Run bus pad raw a) {s : Section} (hs : s ∈ run.sections) {j : Nat}
    {r : Row} (hj : s.rows[j]? = some r) : r.offset = Row.wordCount (s.rows.take j) := by
  obtain ⟨hlt, rfl⟩ := List.getElem?_eq_some_iff.mp hj
  have hlisted := run.listed hs
  rw [← List.take_append_drop j s.rows, List.drop_eq_getElem_cons hlt] at hlisted
  simpa using hlisted.offset_eq

theorem resolved_address (run : Run bus pad raw a) {name : Text} {low high : Nat}
    (hlow : (Word.label name .low).resolve bus a.labels = .ok low)
    (hhigh : (Word.label name .high).resolve bus a.labels = .ok high) :
    ∃ s ∈ run.sections, ∃ r ∈ s.rows, r.declared? = some name ∧
      low + high * bus.wordValues = s.base + r.offset := by
  obtain ⟨addr, haddr, rfl⟩ := Word.resolve_label_eq_ok.mp hlow
  obtain ⟨addr', haddr', rfl⟩ := Word.resolve_label_eq_ok.mp hhigh
  obtain rfl : addr = addr' := Option.some.inj (haddr.symm.trans haddr')
  have hlt := run.address?_lt haddr
  obtain ⟨s, hs, r, hr, hname, rfl⟩ := run.address?_eq_some_iff.mp haddr
  exact ⟨s, hs, r, hr, hname, Bus.split_fst_add_snd_mul hlt⟩

end Run

theorem assemble_label_resolution (h : (assemble bus pad raw).result = .ok a) :
    (∃ head program, (Source.normalize raw).program = .ok (head, program) ∧
      (a.sections.map Section.part).Perm program.parts) ∧
    ∀ s ∈ a.sections,
      (∀ (k : Nat) (name : Text) (half : Half), s.words[k]? = some (.label name half) →
        ∃ r ∈ s.rows, r.RefersTo a.labels name ∧ k = r.offset + half.place) ∧
      ∀ r ∈ s.rows, ∀ name, r.RefersTo a.labels name →
        s.words[r.offset + 1]? = some (.label name .low) ∧
        s.words[r.offset + 2]? = some (.label name .high) ∧
        a.labels.constant? name = none ∧
        ∃ (i j : Nat) (t : Section) (d : Row) (low high : Nat),
          a.sections[i]? = some t ∧ t.rows[j]? = some d ∧
          Statement.parse d.code = .ok (.label name) ∧
          (∀ (i' j' : Nat) (t' : Section) (d' : Row), a.sections[i']? = some t' →
            t'.rows[j']? = some d' → Statement.parse d'.code = .ok (.label name) →
            i' = i ∧ j' = j) ∧
          a.image.words[s.base + (r.offset + 1)]? = some low ∧
          a.image.words[s.base + (r.offset + 2)]? = some high ∧
          low + high * bus.wordValues = t.base + Row.wordCount (t.rows.take j) := by
  obtain ⟨run⟩ := assemble_eq_ok_iff.mp h
  refine ⟨run.exists_program, ?_⟩
  intro s hs
  have hlisted := run.listed (run.mem_sections_iff.mp hs)
  refine ⟨fun k name half hk => ?_, fun r hr name href => ?_⟩
  · obtain ⟨hlt, -⟩ := List.getElem?_eq_some_iff.mp hk
    obtain ⟨r, hr, hle, hlt⟩ := hlisted.exists_row hlt
    obtain ⟨ws, hws, hsize, -, hget⟩ := hlisted.getElem?_words hr
    have hword := hget (k - r.offset) (by omega)
    rw [show r.offset - 0 + (k - r.offset) = k by omega, hk] at hword
    obtain ⟨href, hplace⟩ := Row.refersTo_of_getElem? hws hword.symm
    exact ⟨r, hr, href, by omega⟩
  · obtain ⟨ws, hws, -, -, hget⟩ := hlisted.getElem?_words hr
    obtain ⟨op, rfl⟩ := href.words_eq hws
    have hlow : s.words[r.offset + 1]? = some (.label name .low) := hget 1 (by simp)
    have hhigh : s.words[r.offset + 2]? = some (.label name .high) := hget 2 (by simp)
    obtain ⟨m, -, hoperand⟩ := href
    refine ⟨hlow, hhigh, (Operand.eq_of_parse_eq_label hoperand).2, ?_⟩
    obtain ⟨low, hlowImage, hlow⟩ := run.image_getElem? hs hlow
    obtain ⟨high, hhighImage, hhigh⟩ := run.image_getElem? hs hhigh
    obtain ⟨t, ht, d, hd, hname, haddr⟩ := run.resolved_address hlow hhigh
    obtain ⟨i, hi⟩ := List.getElem?_of_mem (run.mem_sections_iff.mpr ht)
    obtain ⟨j, hj⟩ := List.getElem?_of_mem hd
    refine ⟨i, j, t, d, low, high, hi, hj, Row.declared?_eq_some_iff.mp hname, ?_, hlowImage,
      hhighImage, by rw [haddr, run.offset_eq_sum ht hj]⟩
    intro i' j' t' d' hi' hj' hname'
    exact run.declaration_unique hi hj hname hi' hj' (Row.declared?_eq_some_iff.mpr hname')

theorem assemble_label_resolution_sampleSource :
    ∃ a, (assemble sampleBus true sampleSource).result = .ok a ∧
      (∃ head program, (Source.normalize sampleSource).program = .ok (head, program) ∧
        (a.sections.map Section.part).Perm program.parts) ∧
      ∃ s ∈ a.sections, ∃ r ∈ s.rows, s.kind = .main ∧ s.base = 0 ∧
        r = ⟨8, 2, 3, "JMP HANDLER".toList⟩ ∧ r.RefersTo a.labels "HANDLER".toList ∧
        s.words[3]? = some (.label "HANDLER".toList .low) ∧
        s.words[4]? = some (.label "HANDLER".toList .high) ∧
        ∃ low high, a.image.words[3]? = some low ∧ a.image.words[4]? = some high ∧
          low + high * sampleBus.wordValues = 256 := by
  obtain ⟨a, ha, hsections, hlabels, -⟩ := exists_assemble_sampleSource
  obtain ⟨hparts, hresolved⟩ := assemble_label_resolution ha
  have hmain : a.sections[0]? = some sampleSections[0] := by rw [hsections]; rfl
  have hrow : ⟨8, 2, 3, "JMP HANDLER".toList⟩ ∈ sampleSections[0].rows := by decide +kernel
  have href : Row.RefersTo a.labels ⟨8, 2, 3, "JMP HANDLER".toList⟩ "HANDLER".toList := by
    rw [hlabels]
    exact ⟨.jmp, toOption_eq_some.mp (by decide +kernel), toOption_eq_some.mp (by decide +kernel)⟩
  obtain ⟨hlow, hhigh, -, i, j, t, d, low, high, ht, hd, -, hunique, hlow', hhigh', haddr⟩ :=
    (hresolved _ (List.mem_of_getElem? hmain)).2 _ hrow _ href
  have hinterrupt : a.sections[1]? = some sampleSections[1] := by rw [hsections]; rfl
  have hhandler : Statement.parse "HANDLER:".toList = .ok (.label "HANDLER".toList) :=
    toOption_eq_some.mp (by decide +kernel)
  obtain ⟨rfl, rfl⟩ := hunique 1 0 _ ⟨11, 0, 0, "HANDLER:".toList⟩ hinterrupt rfl hhandler
  obtain rfl := Option.some.inj (ht.symm.trans hinterrupt)
  exact ⟨a, ha, hparts, _, List.mem_of_getElem? hmain, _, hrow, rfl, rfl, rfl, href, hlow, hhigh,
    low, high, hlow', hhigh', haddr⟩

end CrossAssembler
