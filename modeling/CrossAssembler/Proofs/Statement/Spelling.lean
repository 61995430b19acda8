import CrossAssembler.Constants
import CrossAssembler.Proofs.Statement.Encoding
import CrossAssembler.Proofs.Text.Numeral
import CrossAssembler.Proofs.Text.Trim

namespace CrossAssembler

open Outcome Text

variable {bus : Bus} {labels labels' : Labels} {m : Mnemonic} {code param u : Text}

namespace Text

theorem prefix_head_splitOnP {t : Text} (hu : ∀ c ∈ u, isBlank c = false) (h : u <+: t) :
    ∃ w ws, t.splitOnP isBlank = w :: ws ∧ u <+: w := by
  induction t generalizing u with
  | nil => exact ⟨[], [], List.splitOnP_nil, h⟩
  | cons c t ih =>
      rw [List.splitOnP_cons_eq_if_modifyHead]
      cases u with
      | nil =>
          obtain ⟨w, ws, hsplit⟩ := List.exists_cons_of_ne_nil
            (List.splitOnP_ne_nil isBlank (c :: t))
          rw [List.splitOnP_cons_eq_if_modifyHead] at hsplit
          exact ⟨w, ws, hsplit, List.nil_prefix⟩
      | cons d u =>
          obtain ⟨rfl, hpre⟩ := List.cons_prefix_cons.mp h
          obtain ⟨w, ws, hsplit, hw⟩ := ih (fun c hc => hu c (List.mem_cons_of_mem d hc)) hpre
          refine ⟨d :: w, ws, ?_, List.cons_prefix_cons.mpr ⟨rfl, hw⟩⟩
          simp [hu d List.mem_cons_self, hsplit]

theorem exists_infix_splitOnP {t : Text} (hne : u ≠ []) (hu : ∀ c ∈ u, isBlank c = false)
    (h : u <:+: t) : ∃ w ∈ t.splitOnP isBlank, u <:+: w := by
  induction t with
  | nil => exact absurd (List.infix_nil.mp h) hne
  | cons c t ih =>
      rcases List.infix_cons_iff.mp h with hpre | hrest
      · obtain ⟨w, ws, hsplit, hw⟩ := prefix_head_splitOnP hu hpre
        exact ⟨w, hsplit ▸ List.mem_cons_self, hw.isInfix⟩
      · obtain ⟨w, hw, hinfix⟩ := ih hrest
        rw [List.splitOnP_cons_eq_if_modifyHead]
        split
        · exact ⟨w, List.mem_cons_of_mem _ hw, hinfix⟩
        · obtain ⟨v, vs, hsplit⟩ := List.exists_cons_of_ne_nil (List.splitOnP_ne_nil isBlank t)
          rw [hsplit, List.modifyHead_cons]
          rw [hsplit] at hw
          rcases List.mem_cons.mp hw with rfl | hw
          · exact ⟨c :: w, List.mem_cons_self, hinfix.trans (List.suffix_cons c w).isInfix⟩
          · exact ⟨w, List.mem_cons_of_mem _ hw, hinfix⟩

theorem exists_infix_words {t : Text} (hne : u ≠ []) (hu : ∀ c ∈ u, isBlank c = false)
    (h : u <:+: t) : ∃ w ∈ t.words, u <:+: w := by
  obtain ⟨w, hw, hinfix⟩ := exists_infix_splitOnP hne hu h
  have hw' : w ≠ [] := by
    rintro rfl
    exact hne (List.infix_nil.mp hinfix)
  exact ⟨w, List.mem_filter.mpr ⟨hw, by simpa using hw'⟩, hinfix⟩

theorem not_isBlank_of_mem_splitOnP {t w : Text} (hw : w ∈ t.splitOnP isBlank) :
    ∀ c ∈ w, isBlank c = false := by
  induction t generalizing w with
  | nil =>
      obtain rfl : w = [] := by simpa using hw
      simp
  | cons d t ih =>
      rw [List.splitOnP_cons_eq_if_modifyHead] at hw
      split at hw
      · rcases List.mem_cons.mp hw with rfl | hw
        · simp
        · exact ih hw
      · rename_i hd
        obtain ⟨v, vs, hsplit⟩ := List.exists_cons_of_ne_nil (List.splitOnP_ne_nil isBlank t)
        rw [hsplit] at hw ih
        rcases List.mem_cons.mp hw with rfl | hw
        · intro c hc
          rcases List.mem_cons.mp hc with rfl | hc
          · simpa using hd
          · exact ih List.mem_cons_self c hc
        · exact ih (List.mem_cons_of_mem v hw)

theorem not_isBlank_of_mem_words {t w : Text} (h : w ∈ words t) : ∀ c ∈ w, isBlank c = false :=
  not_isBlank_of_mem_splitOnP (List.mem_filter.mp h).1

theorem words_eq_singleton (hne : u ≠ []) (hu : ∀ c ∈ u, isBlank c = false) : words u = [u] := by
  rw [words, List.splitOnP_eq_singleton hu]
  simp [hne]

theorem words_append_cons {c : Char} (hc : isBlank c = true) (s t : Text) :
    words (s ++ c :: t) = words s ++ words t := by
  rw [words, List.splitOnP_append_cons s t hc, List.filter_append]
  rfl

theorem words_append_blank {t : Text} (h : Blank t) (s : Text) : words (s ++ t) = words s := by
  induction t generalizing s with
  | nil => rw [List.append_nil]
  | cons c t ih =>
      have hnil : words t = [] := ih (fun d hd => h d (List.mem_cons_of_mem c hd)) []
      rw [words_append_cons (h c List.mem_cons_self), hnil, List.append_nil]

theorem exists_last_blank (t : Text) :
    (∀ c ∈ t, isBlank c = false) ∨
      ∃ front c back, t = front ++ c :: back ∧ isBlank c = true ∧
        ∀ d ∈ back, isBlank d = false := by
  induction t with
  | nil => exact .inl (by simp)
  | cons d t ih =>
      rcases ih with hsolid | ⟨front, c, back, rfl, hc, hback⟩
      · cases hd : isBlank d with
        | true => exact .inr ⟨[], d, t, rfl, hd, hsolid⟩
        | false => exact .inl (List.forall_mem_cons.mpr ⟨hd, hsolid⟩)
      · exact .inr ⟨d :: front, c, back, rfl, hc, hback⟩

theorem words_replaced {before after v : Text} {ws : List Text}
    (h : words (before ++ u ++ after) = ws ++ [u]) (hafter : Blank after) (hne : v ≠ [])
    (hv : ∀ c ∈ v, isBlank c = false) : words (before ++ v ++ after) = ws ++ [v] := by
  have hmem : u ∈ words (before ++ u ++ after) := h ▸ List.mem_append_right ws (by simp)
  have hu := not_isBlank_of_mem_words hmem
  have hune : u ≠ [] := by simpa using (List.mem_filter.mp hmem).2
  rw [words_append_blank hafter] at h ⊢
  -- What stands right before the last word is part of it, so there is nothing.
  have hwhole : ∀ s : Text, (∀ c ∈ s, isBlank c = false) → words (s ++ u) = [s ++ u] := by
    intro s hs
    exact words_eq_singleton (by simp [hune]) (List.forall_mem_append.mpr ⟨hs, hu⟩)
  rcases exists_last_blank before with hsolid | ⟨front, c, back, rfl, hc, hback⟩
  · rw [hwhole before hsolid] at h
    obtain ⟨hws, hword⟩ := List.append_inj' (List.nil_append _ |>.trans h) rfl
    obtain rfl : before = [] := by simpa using hword
    rw [← hws]
    exact words_eq_singleton hne hv
  · rw [List.append_assoc, List.cons_append, words_append_cons hc, hwhole back hback] at h
    obtain ⟨hws, hword⟩ := List.append_inj' h rfl
    obtain rfl : back = [] := by simpa using hword
    rw [List.append_assoc, List.cons_append, words_append_cons hc, hws, List.nil_append,
      words_eq_singleton hne hv]

theorem words_blank_append {front : Text} (h : Blank front) (t : Text) :
    words (front ++ t) = words t := by
  induction front with
  | nil => rfl
  | cons c front ih =>
      have hbreak := words_append_cons (h c List.mem_cons_self) [] (front ++ t)
      exact hbreak.trans (ih fun d hd => h d (List.mem_cons_of_mem c hd))

theorem dot_not_mem_of_readDigits? {base n v : Nat} {t : Text}
    (h : readDigits? base n t = some v) : '.' ∉ t := by
  intro hdot
  obtain ⟨d, hd, -⟩ := exists_digit_of_mem h hdot
  simp [digitValue?] at hd

end Text

theorem Literal.exists_of_parse? {t : Text} {l : Literal} (h : parse? t = some l) :
    ∃ digits, t = l.radix.marker :: digits ∧
      readDigits? l.radix.base 0 digits = some l.value := by
  cases t with
  | nil => simp [parse?] at h
  | cons c digits =>
      simp only [parse?, Option.bind_eq_bind, Option.bind_eq_some_iff] at h
      obtain ⟨r, hr, h⟩ := h
      obtain rfl := Radix.ofMarker?_eq_some_iff.mp hr
      split at h
      · simp at h
      · simp only [Option.bind_eq_some_iff] at h
        obtain ⟨v, hv, h⟩ := h
        split at h
        · obtain rfl := Option.some.inj h
          exact ⟨digits, rfl, hv⟩
        · simp at h

theorem Literal.dot_not_mem_of_parse? {t : Text} {l : Literal} (h : parse? t = some l) :
    '.' ∉ t := by
  obtain ⟨digits, rfl, hdigits⟩ := exists_of_parse? h
  have hmarker : '.' ≠ l.radix.marker := by cases l.radix <;> decide
  simp only [List.mem_cons, not_or]
  exact ⟨hmarker, dot_not_mem_of_readDigits? hdigits⟩

theorem Radix.isReserved_marker (r : Radix) : isReserved r.marker = true := by
  cases r <;> decide

theorem checkName_eq_ok_iff {name : Text} :
    checkName name = .ok () ↔ name ≠ [] ∧ ∀ c ∈ name, isReserved c = false := by
  unfold checkName
  cases hempty : name.isEmpty with
  | true => simp_all
  | false =>
      cases hany : name.any isReserved with
      | true => simp_all
      | false => simp_all

theorem Mnemonic.name_letters (m : Mnemonic) : m.name.toList.all Char.isUpper = true := by
  cases m <;> decide

theorem Mnemonic.name_solid (m : Mnemonic) :
    m.name.toList ≠ [] ∧ ∀ c ∈ m.name.toList, isBlank c = false := by
  have h : m.name.toList.isEmpty = false ∧ m.name.toList.any isBlank = false := by
    cases m <;> decide
  simpa using h

theorem Mnemonic.isUpper_of_parse? {op : Text} (h : parse? op = some m) :
    ∀ c ∈ op, c.toUpper.isUpper = true := by
  intro c hc
  have hname : m.name.toList = op.map Char.toUpper := by
    simpa using List.find?_some h
  apply List.all_eq_true.mp m.name_letters
  rw [hname]
  exact List.mem_map_of_mem hc

namespace Statement

theorem eq_of_parse_eq_label {name : Text} (h : parse code = .ok (.label name)) :
    code = code.dropLast ++ [':'] ∧ name = trim code.dropLast := by
  unfold parse at h
  split at h
  · rename_i hlast
    dsimp only at h
    split at h
    · simp at h
    · obtain ⟨front, rfl⟩ := List.getLast?_eq_some_iff.mp hlast
      have := Statement.label.inj (Except.ok.inj h)
      exact ⟨by simp, this.symm⟩
  · split at h <;> simp [map_eq_ok] at h

theorem exists_of_parse_eq_instruction (h : parse code = .ok (.instruction m param)) :
    ∃ op, Mnemonic.parse? op = some m ∧
      (code.words = [op] ∧ param = [] ∨ code.words = [op, param]) := by
  have hop : ∀ {op : Text} {p : Text},
      (operation op).map (Statement.instruction · p) = .ok (.instruction m param) →
      Mnemonic.parse? op = some m ∧ p = param := by
    intro op p h
    obtain ⟨m', hm', heq⟩ := map_eq_ok.mp h
    obtain ⟨rfl, rfl⟩ := Statement.instruction.inj heq
    refine ⟨?_, rfl⟩
    unfold operation at hm'
    split at hm'
    · simp at hm'
    · rename_i hparse
      rw [hparse, Except.ok.inj hm']
  unfold parse at h
  split at h
  · dsimp only at h
    split at h <;> simp at h
  · split at h
    · rename_i op hwords
      obtain ⟨hparse, rfl⟩ := hop h
      exact ⟨op, hparse, .inl ⟨hwords, rfl⟩⟩
    · rename_i op p hwords
      obtain ⟨hparse, rfl⟩ := hop h
      exact ⟨op, hparse, .inr hwords⟩
    · simp at h

theorem parse_of_words {before after op : Text} (hop : Mnemonic.parse? op = some m)
    (hwords : words (before ++ param ++ after) = [op, param]) (hne : param ≠ [])
    (hcolon : ':' ∉ param) (hafter : Blank after) :
    parse (before ++ param ++ after) = .ok (.instruction m param) := by
  have hlast : (before ++ param ++ after).getLast? ≠ some ':' := by
    intro hlast
    have hmem : ':' ∈ param ++ after := by
      apply List.mem_of_getLast?
      rwa [List.append_assoc, List.getLast?_append_of_ne_nil _ (by simp [hne])] at hlast
    exact (List.mem_append.mp hmem).elim hcolon (hafter.not_mem (by decide))
  simp only [parse, if_neg hlast, hwords, operation, hop]
  rfl

def ReadsOperand (token : Text) : Prop :=
  ∀ op gap : Text, op ≠ [] → (∀ c ∈ op, isBlank c = false) → gap ≠ [] → Blank gap →
    parse (op ++ gap ++ token) = (operation op).map (.instruction · token)

theorem readsOperand_of_solid {token : Text} (hne : token ≠ [])
    (hsolid : ∀ c ∈ token, isBlank c = false) (hcolon : ':' ∉ token) : ReadsOperand token := by
  intro op gap hop hopSolid hgap hblank
  obtain ⟨c, rest, rfl⟩ := List.exists_cons_of_ne_nil hgap
  have hwords : words (op ++ c :: rest ++ token) = [op, token] := by
    rw [List.append_assoc, List.cons_append, words_append_cons (hblank c List.mem_cons_self),
      words_blank_append fun d hd => hblank d (List.mem_cons_of_mem c hd),
      words_eq_singleton hop hopSolid, words_eq_singleton hne hsolid]
    rfl
  have hlast : (op ++ c :: rest ++ token).getLast? ≠ some ':' := by
    rw [List.getLast?_append_of_ne_nil _ hne]
    exact fun hlast => hcolon (List.mem_of_getLast? hlast)
  rw [parse, if_neg hlast, hwords]

theorem parse_written (m : Mnemonic) (hne : param ≠ []) (hsolid : ∀ c ∈ param, isBlank c = false)
    (hcolon : ':' ∉ param) :
    parse (m.name.toList ++ ' ' :: param) = .ok (.instruction m param) := by
  have hoperation : operation m.name.toList = .ok m := by rw [operation, m.parse?_name]
  have hparse := readsOperand_of_solid hne hsolid hcolon m.name.toList [' '] m.name_solid.1
    m.name_solid.2 (by simp) (by simp [Blank, isBlank])
  rwa [hoperation, List.append_assoc] at hparse

theorem parse_replaced {before after param' : Text}
    (h : parse (before ++ param ++ after) = .ok (.instruction m param)) (hparam : param ≠ [])
    (hafter : Blank after) (hne : param' ≠ []) (hsolid : ∀ c ∈ param', isBlank c = false)
    (hcolon : ':' ∉ param') :
    parse (before ++ param' ++ after) = .ok (.instruction m param') := by
  obtain ⟨op, hop, hwords⟩ := exists_of_parse_eq_instruction h
  have hwords : words (before ++ param ++ after) = [op] ++ [param] :=
    hwords.resolve_left fun hnone => hparam hnone.2
  exact parse_of_words hop (words_replaced hwords hafter hne hsolid) hne hcolon hafter

theorem infix_name {name : Text} (h : parse code = .ok (.label name)) (hu : Tight u)
    (hcolon : ':' ∉ u) (hcode : u <:+: code) : u <:+: name := by
  obtain ⟨hlast, rfl⟩ := eq_of_parse_eq_label h
  rw [hlast, List.infix_concat_iff] at hcode
  rcases hcode with hsuffix | hinfix
  · rcases List.suffix_concat_iff.mp hsuffix with rfl | ⟨t, rfl, -⟩
    · exact absurd rfl hu.ne_nil
    · simp at hcolon
  · exact hu.infix_trim hinfix

theorem infix_param (h : parse code = .ok (.instruction m param)) (hu : ∀ c ∈ u, isBlank c = false)
    {c : Char} (hc : c ∈ u) (hletter : c.toUpper.isUpper = false) (hcode : u <:+: code) :
    u <:+: param := by
  obtain ⟨op, hop, hwords⟩ := exists_of_parse_eq_instruction h
  obtain ⟨w, hw, hinfix⟩ := exists_infix_words (List.ne_nil_of_mem hc) hu hcode
  have hnot : w ≠ op := by
    rintro rfl
    have hmem : c ∈ w := hinfix.subset hc
    simp [Mnemonic.isUpper_of_parse? hop c hmem] at hletter
  rcases hwords with ⟨hwords, rfl⟩ | hwords
  · rw [hwords, List.mem_singleton] at hw
    exact absurd hw hnot
  · rw [hwords] at hw
    rcases List.mem_cons.mp hw with rfl | hw
    · exact absurd rfl hnot
    · rwa [List.mem_singleton.mp hw] at hinfix

end Statement

namespace Operand

theorem eq_of_literal?_eq_some {invalid : Fault} {token : Text} {l : Literal}
    (h : literal? labels invalid token = .ok (some l)) :
    labels.constant? token = some l ∨ Literal.parse? token = some l := by
  unfold literal? at h
  split at h
  · rename_i l' hl'
    left
    rw [hl', Option.some.inj (Except.ok.inj h)]
  · split at h
    · split at h
      · rename_i l' hl'
        right
        rw [hl', Option.some.inj (Except.ok.inj h)]
      · simp at h
    · simp at h

theorem exists_of_parse_eq_immediate {l : Literal}
    (h : parse m param labels = .ok (.immediate l)) :
    ∃ token, param = '#' :: token ∧
      (labels.constant? token = some l ∨ Literal.parse? token = some l) := by
  unfold parse at h
  split at h
  · simp at h
  · rename_i token
    simp only [bind_eq_ok] at h
    obtain ⟨l', hl', h⟩ := h
    cases l' with
    | none => simp at h
    | some l' =>
        obtain rfl := Operand.immediate.inj (pure_eq_ok.mp h)
        exact ⟨token, rfl, eq_of_literal?_eq_some hl'⟩
  · simp only [bind_eq_ok] at h
    obtain ⟨l', -, h⟩ := h
    cases l' <;> simp at h

theorem eq_of_parse_eq_direct {l : Literal} (h : parse m param labels = .ok (.direct l)) :
    labels.constant? param = some l ∨ Literal.parse? param = some l := by
  unfold parse at h
  split at h
  · simp at h
  · simp only [bind_eq_ok] at h
    obtain ⟨l', -, h⟩ := h
    cases l' <;> simp at h
  · simp only [bind_eq_ok] at h
    obtain ⟨l', hl', h⟩ := h
    cases l' with
    | none => simp at h
    | some l' =>
        obtain rfl := Operand.direct.inj (pure_eq_ok.mp h)
        exact eq_of_literal?_eq_some hl'

end Operand

theorem InstructionEncodes.dotted {words : List Word}
    (h : InstructionEncodes bus labels m param words) (hdot : '.' ∈ param) :
    (∃ token l, labels.constant? token = some l ∧ (param = token ∨ param = '#' :: token)) ∨
      checkName param = .ok () ∧ Operand.parse m param labels = .ok (.label param) := by
  have hliteral : ∀ {token : Text} {l : Literal}, '.' ∈ token →
      (labels.constant? token = some l ∨ Literal.parse? token = some l) →
      labels.constant? token = some l :=
    fun hmem h => h.resolve_right fun hparse => Literal.dot_not_mem_of_parse? hparse hmem
  cases h with
  | implied => simp at hdot
  | immediate _ parsed =>
      obtain ⟨token, rfl, hl⟩ := Operand.exists_of_parse_eq_immediate parsed
      have hmem : '.' ∈ token := by simpa using hdot
      exact .inl ⟨token, _, hliteral hmem hl, .inr rfl⟩
  | zeroPage _ parsed =>
      exact .inl ⟨param, _, hliteral hdot (Operand.eq_of_parse_eq_direct parsed), .inl rfl⟩
  | absolute _ parsed =>
      exact .inl ⟨param, _, hliteral hdot (Operand.eq_of_parse_eq_direct parsed), .inl rfl⟩
  | label _ parsed _ _ named => exact .inr ⟨named, parsed⟩

end CrossAssembler
