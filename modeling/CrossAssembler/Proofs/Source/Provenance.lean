import CrossAssembler.Proofs.Source.Indexed

namespace CrossAssembler

open Text

namespace Text

def contribution (line : Text) : Text :=
  match line.significant? with
  | none => []
  | some code => code ++ ['\n']

def producedBy (raw : Text) (n : Nat) : Text :=
  (raw.lines.take n).flatMap contribution

theorem eq_of_significant? {line code : Text} (h : line.significant? = some code) :
    code = upper (uncomment (trimStart line)) := by
  unfold significant? at h
  dsimp only at h
  split at h
  · simp at h
  · exact (Option.some.inj h).symm

theorem tight_trim {t : Text} (h : trim t ≠ []) : Tight (trim t) := by
  obtain ⟨-, -, -, -, htight, -⟩ := exists_trim_append fun hblank : Blank t => h hblank.trim_eq
  exact htight

structure Produced (raw : Text) (n offset : Nat) : Prop where
  positive : 1 ≤ n
  le_length : n ≤ raw.lines.length
  start_le : octets (producedBy raw (n - 1)) ≤ offset
  lt_stop : offset < octets (producedBy raw n)

theorem octets_producedBy_le {raw : Text} {n n' : Nat} (h : n ≤ n') :
    octets (producedBy raw n) ≤ octets (producedBy raw n') := by
  obtain ⟨k, rfl⟩ := Nat.exists_eq_add_of_le h
  rw [producedBy, producedBy, List.take_add, List.flatMap_append, octets_append]
  exact Nat.le_add_right _ _

namespace Produced

variable {raw : Text} {n n' offset : Nat}

theorem le (h : Produced raw n offset) (h' : Produced raw n' offset) : n ≤ n' := by
  by_contra hlt
  have hmono : octets (producedBy raw n') ≤ octets (producedBy raw (n - 1)) :=
    octets_producedBy_le (Nat.le_sub_one_of_lt (Nat.not_le.mp hlt))
  have hstart := h.start_le
  have hstop := h'.lt_stop
  omega

theorem unique (h : Produced raw n offset) (h' : Produced raw n' offset) : n = n' :=
  Nat.le_antisymm (h.le h') (h'.le h)

end Produced

end Text

namespace SourceLine

structure IsCodeOf (raw : Text) (l : SourceLine) : Prop where
  positive : 1 ≤ l.number
  le_length : l.number ≤ raw.lines.length
  ne_nil : l.text ≠ []
  trimmed : trim l.text = l.text
  genuine : ∃ line, raw.lines[l.number - 1]? = some line ∧
    l.text <:+: upper (uncomment (trimStart line))

end SourceLine

inductive Covers (raw : Text) : Nat → Text → List SourceLine → Prop
  | nil {offset : Nat} {t : Text} (blank : Blank t) : Covers raw offset t []
  | cons {offset : Nat} {gap t : Text} {l : SourceLine} {ls : List SourceLine} (blank : Blank gap)
      (produced : ∀ k < octets l.text, Produced raw l.number (offset + octets gap + k))
      (rest : Covers raw (offset + octets gap + octets l.text) t ls) :
      Covers raw offset (gap ++ l.text ++ t) (l :: ls)

namespace Covers

variable {raw t : Text} {ls : List SourceLine} {offset number : Nat}

theorem squeeze_eq (h : Covers raw offset t ls) : squeeze (ls.flatMap (·.text)) = squeeze t := by
  have hnone : ∀ {s : Text}, Blank s → squeeze s = [] := by
    intro s hs
    simpa [squeeze, List.filter_eq_nil_iff, Blank] using hs
  induction h with
  | nil blank => exact (hnone blank).symm
  | cons blank _ _ ih =>
      have hgap := hnone blank
      rw [squeeze, squeeze] at ih ⊢
      rw [squeeze] at hgap
      rw [List.flatMap_cons, List.filter_append, ih, List.filter_append, List.filter_append, hgap,
        List.nil_append]

theorem blank_append {s : Text} (hs : Blank s) (h : Covers raw (offset + octets s) t ls) :
    Covers raw offset (s ++ t) ls := by
  cases h with
  | nil blank => exact .nil (hs.append blank)
  | @cons _ gap t l ls blank produced rest =>
      rw [← List.append_assoc, ← List.append_assoc]
      refine .cons (hs.append blank) ?_ ?_
      · rwa [octets_append, ← Nat.add_assoc]
      · rwa [octets_append, ← Nat.add_assoc]

theorem pieceOf_append {chunk : Text}
    (hchunk : ∀ k < octets chunk, Produced raw number (offset + k))
    (h : Covers raw (offset + octets chunk) t ls) :
    Covers raw offset (chunk ++ t) (Source.pieceOf number chunk ++ ls) := by
  by_cases hblank : Blank chunk
  · rw [Source.pieceOf, hblank.trim_eq]
    exact h.blank_append hblank
  · obtain ⟨front, back, hfront, hback, htight, heq⟩ := exists_trim_append hblank
    have hne : (trim chunk).isEmpty = false := by simpa using htight.ne_nil
    have hlength : octets chunk = octets front + octets (trim chunk) + octets back := by
      rw [← octets_append, ← octets_append, ← heq]
    rw [Source.pieceOf, hne]
    have hrest : Covers raw (offset + octets front + octets (trim chunk)) (back ++ t) ls := by
      refine blank_append hback ?_
      rwa [Nat.add_assoc, Nat.add_assoc, ← Nat.add_assoc (octets front), ← hlength]
    -- the blanks before the piece are its gap, those after it are left to the next one
    have hcovers := cons (l := ⟨number, trim chunk⟩) hfront (fun k hk => by
      rw [Nat.add_assoc]
      exact hchunk _ (by dsimp only at hk; omega)) hrest
    rwa [← List.append_assoc, ← heq] at hcovers

end Covers

namespace Source

variable {raw : Text} {ls before after : List SourceLine} {l : SourceLine} {start stop n : Nat}

theorem textOf_significant (n : Nat) (ls : List Text) :
    textOf (significant n ls) = ls.flatMap contribution := by
  induction ls generalizing n with
  | nil => rfl
  | cons line ls ih =>
      rw [List.flatMap_cons, contribution]
      split
      · rename_i hnone
        rw [significant_cons_none hnone, ih]
        rfl
      · rename_i code hcode
        rw [significant_cons_some hcode, textOf_cons, ih, List.append_assoc]
        rfl

theorem exists_of_significant_eq_append {ls : List Text}
    (h : significant n ls = before ++ l :: after) :
    ∃ front line back, ls = front ++ line :: back ∧ l.number = n + front.length ∧
      line.significant? = some l.text ∧ significant n front = before := by
  induction ls generalizing n before with
  | nil => simp [significant] at h
  | cons line ls ih =>
      cases hcode : line.significant? with
      | none =>
          rw [significant_cons_none hcode] at h
          obtain ⟨front, found, back, rfl, hnumber, hfound, hbefore⟩ := ih h
          refine ⟨line :: front, found, back, rfl, ?_, hfound, ?_⟩
          · rw [hnumber, List.length_cons]
            omega
          · rw [significant_cons_none hcode, hbefore]
      | some code =>
          rw [significant_cons_some hcode] at h
          rcases List.cons_eq_append_iff.mp h with ⟨rfl, hl⟩ | ⟨rest, rfl, hrest⟩
          · obtain ⟨rfl, -⟩ := List.cons.inj hl
            exact ⟨[], line, ls, rfl, rfl, hcode, rfl⟩
          · obtain ⟨front, found, back, rfl, hnumber, hfound, hbefore⟩ := ih hrest
            refine ⟨line :: front, found, back, rfl, ?_, hfound, ?_⟩
            · rw [hnumber, List.length_cons]
              omega
            · rw [significant_cons_some hcode, hbefore]

theorem produced_of_lines (h : (normalize raw).lines = before ++ l :: after) {k : Nat}
    (hk : k ≤ octets l.text) : Produced raw l.number (octets (textOf before) + k) := by
  obtain ⟨front, line, back, hraw, hnumber, hcode, hbefore⟩ := exists_of_significant_eq_append h
  have hlast : l.number - 1 = front.length := by omega
  have hfront : producedBy raw (l.number - 1) = textOf before := by
    rw [producedBy, hlast, hraw, List.take_left, ← hbefore, textOf_significant]
  have hwhole : producedBy raw l.number = textOf before ++ (l.text ++ ['\n']) := by
    rw [hnumber, Nat.add_comm, producedBy, List.take_add, List.flatMap_append, ← producedBy,
      ← hlast, hfront, hlast, hraw, List.drop_left]
    simp [contribution, hcode]
  refine ⟨by omega, ?_, ?_, ?_⟩
  · rw [hraw, List.length_append, List.length_cons]
    omega
  · rw [hfront]
    exact Nat.le_add_right _ _
  · rw [hwhole, octets_append, octets_append, octets_cons, octets_newline, octets_nil]
    omega

theorem PartOf.produced {offset : Nat} {chunk : Text}
    (h : (normalize raw).PartOf l offset chunk) :
    ∀ k < octets chunk, Produced raw l.number (offset + k) := by
  obtain ⟨before, after, m, hsrc, rfl, hm, -⟩ := h
  intro k hk
  rw [Nat.add_assoc]
  exact produced_of_lines hsrc (by omega)

theorem Chunked.covers {offset : Nat} {t : Text} {found : List SourceLine}
    (h : Chunked (normalize raw) offset t found) : Covers raw offset t found := by
  induction h with
  | nil offset => exact .nil (by decide)
  | @last offset chunk l part =>
      have hcovers := Covers.pieceOf_append part.produced
        (.nil (t := []) (by decide) : Covers raw (offset + octets chunk) [] [])
      rwa [List.append_nil, List.append_nil] at hcovers
  | cons part _ ih =>
      refine .pieceOf_append part.produced (.blank_append (s := ['\n']) (by decide) ?_)
      exact ih

theorem isCodeOf_of_mem_linesIn {span : Span} (h : l ∈ (normalize raw).linesIn span) :
    l.IsCodeOf raw := by
  obtain ⟨l', hl', hnumber, hinfix⟩ := exists_line_of_mem_piecesIn h
  obtain ⟨hpos, line, hget, hcode⟩ := exists_of_mem_significant hl'
  have htext : l.text ∈ codeLines ((normalize raw).slice span) := by
    rw [← map_text_linesIn]
    exact List.mem_map_of_mem h
  obtain ⟨htrim, hne⟩ := List.mem_filter.mp htext
  obtain ⟨chunk, -, htrim⟩ := List.mem_map.mp htrim
  have hne : trim chunk ≠ [] := by simpa [htrim] using hne
  have htrimmed : trim (trim chunk ++ []) = trim chunk :=
    (tight_trim hne).trim_append_right (by decide)
  rw [List.append_nil, htrim] at htrimmed
  rw [hnumber] at hpos hget
  obtain ⟨hlt, -⟩ := List.getElem?_eq_some_iff.mp hget
  refine ⟨hpos, by omega, htrim ▸ hne, htrimmed, line, hget, ?_⟩
  rwa [← eq_of_significant? hcode]

theorem text_eq_producedBy (raw : Text) :
    (normalize raw).text = producedBy raw raw.lines.length := by
  rw [producedBy, List.take_length, ← textOf_significant 1]
  rfl

theorem linesIn_provenance (raw : Text) :
    let src := normalize raw
    let x := IndexedText.normalize raw
    x = src.indexed ∧ src.text = producedBy raw raw.lines.length ∧
      (∀ (span : OctetSpan) (within : Text), x.slice span = .ok within →
        ∃ (chars : Span) (found : List SourceLine),
          src.octetSpan chars = span ∧ src.slice chars = within ∧
          src.linesIn chars = found ∧ x.linesIn span = .ok found ∧
          found.Pairwise (·.number < ·.number) ∧ (∀ l ∈ found, l.IsCodeOf raw) ∧
          squeeze (found.flatMap (·.text)) = squeeze within ∧
          Covers raw span.start within found) ∧
      ∀ offset < octets src.text,
        ∃ k, src.text.octetAt k ≤ offset ∧ offset < src.text.octetAt (k + 1) ∧
          src.lineOf k = x.lineOf offset ∧ ∀ n, n = x.lineOf offset ↔ Produced raw n offset := by
  rw [normalize_indexed]
  intro src x
  have hline : ∀ l ∈ (normalize raw).lines, '\n' ∉ l.text := fun _ => newline_not_mem_normalize
  refine ⟨rfl, text_eq_producedBy raw, fun span within hslice => ?_, fun offset hoffset => ?_⟩
  · obtain ⟨chars, rfl, hle, rfl⟩ := exists_span_of_slice hslice
    have hcovers := (chunked_linesIn hline hle).covers
    exact ⟨chars, _, rfl, rfl, rfl, linesIn_indexed hline hle, pairwise_number_linesIn raw chars,
      fun l hl => isCodeOf_of_mem_linesIn hl, hcovers.squeeze_eq, hcovers⟩
  · obtain ⟨k, hk, hle, hlt⟩ := exists_char_at hoffset
    refine ⟨k, hle, hlt, (lineOf_indexed_char hle hlt).symm, fun n => ?_⟩
    obtain ⟨before, l, after, j, hlines, hkj, hj⟩ := exists_line_at hk
    obtain ⟨m, hm, rfl⟩ := exists_octet_in_line hlines hkj hj hle hlt
    have hproduced := produced_of_lines hlines hm
    have hlineOf : x.lineOf (octets (textOf before) + m) = l.number := lineOf_indexed hlines hm
    rw [hlineOf]
    exact ⟨fun h => h ▸ hproduced, fun h => h.unique hproduced⟩

def widenedSource : Text :=
  "// ¬\r\n  straße: // x\n\n\tlda #¬101\n".toList

theorem linesIn_provenance_widenedSource :
    (IndexedText.normalize widenedSource).slice ⟨3, 18⟩ = .ok "ASSE: \nLDA #¬1".toList ∧
      (IndexedText.normalize widenedSource).slice ⟨3, 16⟩ = .error .badSlice ∧
      Covers widenedSource 3 "ASSE: \nLDA #¬1".toList
        [⟨2, "ASSE:".toList⟩, ⟨4, "LDA #¬1".toList⟩] ∧
      Produced widenedSource 4 16 := by
  have hslice : (IndexedText.normalize widenedSource).slice ⟨3, 18⟩ =
      .ok "ASSE: \nLDA #¬1".toList := by decide +kernel
  have hlines : (IndexedText.normalize widenedSource).linesIn ⟨3, 18⟩ =
      .ok [⟨2, "ASSE:".toList⟩, ⟨4, "LDA #¬1".toList⟩] := by decide +kernel
  have hlineOf : (IndexedText.normalize widenedSource).lineOf 16 = 4 := by decide +kernel
  obtain ⟨-, -, hspans, hoffsets⟩ := linesIn_provenance widenedSource
  obtain ⟨_, found, -, -, -, hfound, -, -, -, hcovers⟩ := hspans ⟨3, 18⟩ _ hslice
  obtain ⟨k, -, -, -, hproduced⟩ := hoffsets 16 (by decide +kernel)
  obtain rfl := Except.ok.inj (hfound.symm.trans hlines)
  exact ⟨hslice, by decide +kernel, hcovers, (hproduced 4).mp hlineOf.symm⟩

end Source

end CrossAssembler
