import CrossAssembler.Proofs.Section.Capacity
import CrossAssembler.Proofs.Source.Numbering

namespace CrossAssembler

open Outcome Sequence Text

variable {bus : Bus} {labels labels' : Labels}

namespace Row

variable {r : Row} {ws words : List Word} {offset : Nat}

def IsLabel (r : Row) : Prop :=
  ∃ name, Statement.parse r.code = .ok (.label name)

def Encodes (bus : Bus) (labels : Labels) (r : Row) (ws : List Word) : Prop :=
  ∃ m param, Statement.parse r.code = .ok (.instruction m param) ∧
    ∀ known : Labels, known.consts = labels.consts → encode m param bus known = .ok ws

def Emitted (bus : Bus) (labels : Labels) (r : Row) (words : List Word) (offset : Nat) : Prop :=
  ∃ ws k, r.Encodes bus labels ws ∧ k < ws.length ∧ offset = r.offset + k ∧ words[offset]? = ws[k]?

theorem isLabel_or_encodes (h : r.words bus labels = .ok ws) :
    r.IsLabel ∧ ws = [] ∨ r.Encodes bus labels ws := by
  rcases SourceLine.exists_of_words (l := r.source) h with
    ⟨name, hparse, hnil⟩ | ⟨m, param, hparse, hencode⟩
  · exact .inl ⟨⟨name, hparse⟩, hnil⟩
  · refine .inr ⟨m, param, hparse, fun known hknown => ?_⟩
    rwa [encode_congr hknown]

namespace Encodes

theorem words_eq (h : r.Encodes bus labels ws) : r.words bus labels = .ok ws := by
  obtain ⟨m, param, hparse, hencode⟩ := h
  simp [Row.words, hparse, hencode labels rfl]

theorem length_pos_and_le (h : r.Encodes bus labels ws) : 1 ≤ ws.length ∧ ws.length ≤ 3 := by
  obtain ⟨m, param, -, hencode⟩ := h
  cases encode_eq_ok_iff.mp (hencode labels rfl) <;> simp

end Encodes

end Row

namespace Listed

variable {offset : Nat} {rows : List Row} {words : List Word}

theorem offset_of_head? (h : Listed bus labels offset rows words) :
    ∀ r ∈ rows.head?, r.offset = offset := by
  cases h with
  | nil => simp
  | cons starts => simpa using starts

theorem isChain (h : Listed bus labels offset rows words) :
    rows.IsChain fun r r' => r'.offset = r.offset + r.size := by
  induction h with
  | nil => exact .nil
  | @cons offset r rows ws more starts emitted size tail ih =>
      cases tail with
      | nil => exact .singleton r
      | @cons _ r' _ _ _ starts' =>
          refine .cons_cons ?_ ih
          rw [starts', starts, size]

theorem stop_of_getLast? (h : Listed bus labels offset rows words) :
    ∀ r ∈ rows.getLast?, r.offset + r.size = offset + words.length := by
  intro r hr
  obtain ⟨before, rfl⟩ := List.getLast?_eq_some_iff.mp hr
  obtain ⟨front, back, rfl, -, hback⟩ := h.append
  cases hback with
  | cons starts _ size tail =>
      cases tail
      rw [starts, size, List.length_append, List.append_nil, Nat.add_assoc]

theorem pairwise (h : Listed bus labels offset rows words) :
    rows.Pairwise fun r r' => r.offset + r.size ≤ r'.offset := by
  induction h with
  | nil => exact .nil
  | cons starts _ size tail ih =>
      refine .cons (fun r' hr' => ?_) ih
      obtain ⟨-, -, -, hle, -⟩ := tail.getElem?_words hr'
      rwa [starts, size]

theorem covers_unique (h : Listed bus labels offset rows words) (k : Nat) :
    rows.Pairwise fun r r' => r.covers k = true → ¬r'.covers k = true := by
  refine h.pairwise.imp fun {r r'} hle hr hr' => ?_
  rw [Row.covers_iff] at hr hr'
  omega

theorem size_eq (h : Listed bus labels offset rows words) {r : Row} (hr : r ∈ rows)
    {ws : List Word} (hws : r.Encodes bus labels ws) : r.size = ws.length := by
  obtain ⟨ws', hwords, hsize, -⟩ := h.getElem?_words hr
  rw [hws.words_eq] at hwords
  rw [hsize, Except.ok.inj hwords]

theorem isLabel_or_encodes (h : Listed bus labels offset rows words) {r : Row} (hr : r ∈ rows) :
    r.IsLabel ∧ r.size = 0 ∨ (∃ ws, r.Encodes bus labels ws) ∧ 1 ≤ r.size ∧ r.size ≤ 3 := by
  obtain ⟨ws, hwords, hsize, -⟩ := h.getElem?_words hr
  rcases Row.isLabel_or_encodes hwords with ⟨hlabel, rfl⟩ | hencodes
  · exact .inl ⟨hlabel, hsize⟩
  · rw [hsize]
    exact .inr ⟨⟨ws, hencodes⟩, hencodes.length_pos_and_le⟩

theorem emitted_iff (h : Listed bus labels 0 rows words) {r : Row} (hr : r ∈ rows) {k : Nat} :
    r.Emitted bus labels words k ↔ r.covers k = true := by
  obtain ⟨ws, hwords, hsize, -, hget⟩ := h.getElem?_words hr
  rw [Row.covers_iff]
  constructor
  · rintro ⟨ws', j, hencodes, hj, rfl, -⟩
    rw [h.size_eq hr hencodes]
    omega
  · rintro ⟨hle, hlt⟩
    obtain ⟨j, rfl⟩ := Nat.exists_eq_add_of_le hle
    rcases Row.isLabel_or_encodes hwords with ⟨-, rfl⟩ | hencodes
    · -- the row of a label is empty and covers nothing
      simp only [List.length_nil] at hsize
      omega
    · exact ⟨ws, j, hencodes, by omega, rfl, hget j (by omega)⟩

end Listed

namespace Section

structure Tiled (bus : Bus) (labels : Labels) (s : Section) : Prop where
  first : ∀ r ∈ s.rows.head?, r.offset = 0
  next : s.rows.IsChain fun r r' => r'.offset = r.offset + r.size
  last : ∀ r ∈ s.rows.getLast?, r.offset + r.size = s.words.length
  empty : s.rows = [] → s.words = []
  sizes : ∀ r ∈ s.rows, r.IsLabel ∧ r.size = 0 ∨
    (∃ ws, r.Encodes bus labels ws) ∧ 1 ≤ r.size ∧ r.size ≤ 3
  within : ∀ offset < s.words.length, ∃ (i : Nat) (r : Row), s.rows[i]? = some r ∧
    r.Emitted bus labels s.words offset ∧ s.lineAt? offset = some r.line ∧
    ∀ (j : Nat) (r' : Row), s.rows[j]? = some r' → r'.Emitted bus labels s.words offset → j = i
  beyond : ∀ offset, s.words.length ≤ offset → s.lineAt? offset = none

theorem tiled_of_listed {s : Section} (h : Listed bus labels 0 s.rows s.words) :
    s.Tiled bus labels where
  first := h.offset_of_head?
  next := h.isChain
  last r hr := by rw [h.stop_of_getLast? r hr, Nat.zero_add]
  empty hnil := by
    rw [← List.length_eq_zero_iff, h.length_words, hnil]
    rfl
  sizes r hr := h.isLabel_or_encodes hr
  within offset hlt := by
    obtain ⟨r, hr, hle, hlt⟩ := h.exists_row hlt
    have hcovers : r.covers offset = true := Row.covers_iff.mpr ⟨by omega, by omega⟩
    obtain ⟨i, hi⟩ := List.getElem?_of_mem hr
    refine ⟨i, r, hi, (h.emitted_iff hr).mpr hcovers, ?_, fun j r' hj hemitted => ?_⟩
    · rw [lineAt?, find?_eq_some_of_pairwise (h.covers_unique offset) hr hcovers]
      rfl
    · have hcovers' := (h.emitted_iff (List.mem_of_getElem? hj)).mp hemitted
      exact index_unique (h.covers_unique offset) hi hcovers hj hcovers'
  beyond offset hle := by
    rw [lineAt?, Option.map_eq_none_iff, List.find?_eq_none]
    intro r hr hcovers
    have hstop := h.offset_add_size_le hr
    rw [Row.covers_iff] at hcovers
    omega

theorem encode_tiles (raw : Text) (body : Span) (bus : Bus) (site : Site) (labels : Labels)
    {labels' : Labels} {s : Section}
    (h : (encode bus site labels ((Source.normalize raw).linesIn body)).result =
      .ok (labels', s)) :
    s.rows.map Row.source = (Source.normalize raw).linesIn body ∧
    s.rows.map Row.code = codeLines ((Source.normalize raw).slice body) ∧
    s.rows.Pairwise (·.line < ·.line) ∧ s.Tiled bus labels := by
  obtain ⟨words, rows, hbody, rfl⟩ := encode_eq_ok_iff.mp h
  have hsource := hbody.map_source
  refine ⟨hsource, ?_, ?_, tiled_of_listed (hbody.listed rfl)⟩
  · rw [← Source.map_text_linesIn, ← hsource, List.map_map]
    rfl
  · have hnumbers := Source.pairwise_number_linesIn raw body
    rw [← hsource, List.pairwise_map] at hnumbers
    exact hnumbers

def trackedSource : Text :=
  "nop // wait\n\nstart:\n  lda #$01\n".toList

def trackedBody : List SourceLine :=
  (Source.normalize trackedSource).linesIn (Source.normalize trackedSource).all

theorem encode_tiles_trackedSource :
    ∃ labels' s,
      (encode sampleBus ⟨.main, 0, mainEnd⟩ .empty trackedBody).result = .ok (labels', s) ∧
      s.rows.map Row.code = codeLines "NOP \nSTART:\nLDA #$01\n".toList ∧
      s.lineAt? 1 = some 4 ∧ s.lineAt? 3 = none ∧ s.Tiled sampleBus .empty := by
  have h : (encode sampleBus ⟨.main, 0, mainEnd⟩ .empty trackedBody).result.toOption.any
      (fun x => x.2.lineAt? 1 = some 4 ∧ x.2.words.length = 3) = true := by decide +kernel
  obtain ⟨⟨labels', s⟩, hs, hfound⟩ := (Option.any_eq_true _ _).mp h
  obtain ⟨hline, hlength⟩ : s.lineAt? 1 = some 4 ∧ s.words.length = 3 := by simpa using hfound
  rw [Outcome.toOption_eq_some] at hs
  have hslice : (Source.normalize trackedSource).slice (Source.normalize trackedSource).all =
      "NOP \nSTART:\nLDA #$01\n".toList := by decide +kernel
  obtain ⟨-, hcodes, -, htiled⟩ := encode_tiles trackedSource _ _ _ _ hs
  rw [hslice] at hcodes
  exact ⟨labels', s, hs, hcodes, hline, htiled.beyond 3 (Nat.le_of_eq hlength), htiled⟩

end Section

end CrossAssembler
