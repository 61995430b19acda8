import CrossAssembler.Proofs.Bus
import CrossAssembler.Proofs.Constants.Collection
import CrossAssembler.Proofs.Statement.Spelling

namespace CrossAssembler

open Outcome

variable {bus : Bus} {labels : Labels} {m : Mnemonic} {param token : Text} {l : Literal}
  {words : List Word}

theorem Radix.marker_ne_hash (r : Radix) : r.marker ≠ '#' := by
  cases r <;> decide

theorem Literal.hasMarker_of_parse? (h : parse? token = some l) : token.hasMarker = true := by
  obtain ⟨digits, rfl, -⟩ := exists_of_parse? h
  rw [Text.hasMarker, Radix.ofMarker?_eq_some_iff.mpr rfl]
  rfl

theorem isReserved_of_hasMarker (h : token.hasMarker = true) :
    ∃ c ∈ token, isReserved c = true := by
  cases token with
  | nil => simp [Text.hasMarker] at h
  | cons c rest =>
      obtain ⟨r, hr⟩ := Option.isSome_iff_exists.mp h
      obtain rfl := Radix.ofMarker?_eq_some_iff.mp hr
      exact ⟨_, List.mem_cons_self, r.isReserved_marker⟩

theorem not_hasMarker_of_plain (h : ∀ c ∈ token, isReserved c = false) :
    token.hasMarker = false := by
  rw [← Bool.not_eq_true]
  intro hmarker
  obtain ⟨c, hc, hreserved⟩ := isReserved_of_hasMarker hmarker
  simp [h c hc] at hreserved

namespace Labels

def literal? (labels : Labels) (token : Text) : Option Literal :=
  (labels.constant? token).or (Literal.parse? token)

def value? (labels : Labels) (token : Text) : Option Nat :=
  (labels.literal? token).map (·.value)

def Named (labels : Labels) : Prop :=
  ∀ name l, labels.constant? name = some l → checkName name = .ok ()

theorem literal?_of_constant? (h : labels.constant? token = some l) :
    labels.literal? token = some l := by
  simp [literal?, h]

namespace Named

theorem constant?_eq_none (h : labels.Named) (hmarker : token.hasMarker = true) :
    labels.constant? token = none := by
  obtain ⟨c, hc, hreserved⟩ := isReserved_of_hasMarker hmarker
  rw [Option.eq_none_iff_forall_ne_some]
  intro l hl
  simp [(checkName_eq_ok_iff.mp (h token l hl)).2 c hc] at hreserved

theorem literal?_of_parse? (h : labels.Named) (hl : Literal.parse? token = some l) :
    labels.literal? token = some l := by
  simp [literal?, h.constant?_eq_none (Literal.hasMarker_of_parse? hl), hl]

theorem ne_nil_and_head?_ne (h : labels.Named) (hl : labels.literal? token = some l) :
    token ≠ [] ∧ token.head? ≠ some '#' := by
  rcases Option.or_eq_some_iff.mp hl with hconst | ⟨-, hparse⟩
  · obtain ⟨hne, hplain⟩ := checkName_eq_ok_iff.mp (h token l hconst)
    refine ⟨hne, fun hhash => ?_⟩
    have := hplain '#' (List.mem_of_head? hhash)
    simp [isReserved] at this
  · obtain ⟨digits, rfl, -⟩ := Literal.exists_of_parse? hparse
    exact ⟨by simp, by simpa using l.radix.marker_ne_hash⟩

end Named

end Labels

namespace Operand

theorem literal?_eq_some_iff (invalid : Fault) :
    literal? labels invalid token = .ok (some l) ↔ labels.literal? token = some l := by
  unfold literal? Labels.literal?
  cases labels.constant? token with
  | some l' => simp
  | none =>
      cases hparse : Literal.parse? token with
      | some l' => simp [Literal.hasMarker_of_parse? hparse]
      | none => by_cases hmarker : token.hasMarker = true <;> simp [hmarker]

theorem literal?_eq_none_iff {invalid : Fault} :
    literal? labels invalid token = .ok none ↔
      labels.constant? token = none ∧ token.hasMarker = false := by
  unfold literal?
  cases labels.constant? token with
  | some l' => simp
  | none =>
      by_cases hmarker : token.hasMarker = true
      · cases Literal.parse? token <;> simp [hmarker]
      · simp [hmarker]

theorem parse_of_head?_ne (hne : param ≠ []) (hhash : param.head? ≠ some '#') :
    parse m param labels = (do
      match ← literal? labels (.invalidParameter m param) param with
      | some l => return .direct l
      | none => return .label param) := by
  unfold parse
  split
  · exact absurd rfl hne
  · simp at hhash
  · rfl

theorem parse_eq_immediate_iff :
    parse m ('#' :: token) labels = .ok (.immediate l) ↔ labels.literal? token = some l := by
  rw [← literal?_eq_some_iff (.invalidParameter m ('#' :: token))]
  simp only [parse, bind_eq_ok]
  constructor
  · rintro ⟨l', hl', h⟩
    cases l' with
    | none => simp at h
    | some l' =>
        obtain rfl := Operand.immediate.inj (pure_eq_ok.mp h)
        exact hl'
  · intro h
    exact ⟨_, h, rfl⟩

theorem parse_eq_direct_iff (hne : param ≠ []) (hhash : param.head? ≠ some '#') :
    parse m param labels = .ok (.direct l) ↔ labels.literal? param = some l := by
  rw [← literal?_eq_some_iff (.invalidParameter m param), parse_of_head?_ne hne hhash,
    bind_eq_ok]
  constructor
  · rintro ⟨l', hl', h⟩
    cases l' with
    | none => simp at h
    | some l' =>
        obtain rfl := Operand.direct.inj (pure_eq_ok.mp h)
        exact hl'
  · intro h
    exact ⟨_, h, rfl⟩

theorem bare_of_parse_eq_direct (h : parse m param labels = .ok (.direct l)) :
    param ≠ [] ∧ param.head? ≠ some '#' := by
  refine ⟨?_, fun hhash => ?_⟩
  · rintro rfl
    simp [parse_nil] at h
  · obtain ⟨token, rfl⟩ := List.head?_eq_some_iff.mp hhash
    simp only [parse, bind_eq_ok] at h
    obtain ⟨l', -, h⟩ := h
    cases l' <;> simp at h

theorem parse_of_plain (hne : param ≠ []) (hplain : ∀ c ∈ param, isReserved c = false)
    (hfree : labels.constant? param = none) : parse m param labels = .ok (.label param) := by
  have hhash : param.head? ≠ some '#' := by
    intro h
    have := hplain '#' (List.mem_of_head? h)
    simp [isReserved] at this
  rw [parse_of_head?_ne hne hhash,
    literal?_eq_none_iff.mpr ⟨hfree, not_hasMarker_of_plain hplain⟩]
  rfl

end Operand

namespace Mnemonic

def jumps : List Mnemonic :=
  [.jmp, .jsr, .bcc, .bcs, .bzc, .bzs, .bnc, .bns, .boc, .bos]

theorem takesLabel_iff : m.takesLabel = true ↔ m ∈ jumps := by
  cases m <;> decide

theorem exists_absolute (h : m ∈ jumps) : ∃ op, m.opcodes.absolute = some op := by
  have hall : ∀ m ∈ jumps, m.opcodes.absolute.isSome = true := by decide
  exact Option.isSome_iff_exists.mp (hall m h)

theorem implied_eq_none_of_modes :
    ∀ m ∈ all, ∀ x ∈ m.opcodes.modes, x.1 ≠ .implied → m.opcodes.implied = none := by
  decide +kernel

theorem implied_eq_none (mode : Mode) {op : Nat} (h : m.opcodes.get? mode = some op)
    (hmode : mode ≠ .implied) : m.opcodes.implied = none :=
  implied_eq_none_of_modes m m.mem_all (mode, op) (Opcodes.mem_modes.mpr h) hmode

end Mnemonic

theorem Bus.split_eq {addr : Nat} (h : addr < bus.space) :
    bus.split addr = (addr % bus.wordValues, addr / bus.wordValues) := by
  have hhigh : addr / bus.wordValues < bus.wordValues :=
    Nat.div_lt_of_lt_mul (Nat.lt_of_lt_of_le h bus.space_le)
  rw [Bus.split, Nat.mod_eq_of_lt hhigh]

inductive Addressed (bus : Bus) (labels : Labels) (m : Mnemonic) : Text → List Word → Prop
  | implied {op : Nat} (opcode : m.opcodes.implied = some op) :
      Addressed bus labels m [] [.value op]
  | immediate {token : Text} {op n : Nat} (opcode : m.opcodes.immediate = some op)
      (value : labels.value? token = some n) (fits : n < bus.wordValues) :
      Addressed bus labels m ('#' :: token) [.value op, .value n]
  | zeroPage {param : Text} {op n : Nat} (bare : param.head? ≠ some '#')
      (opcode : m.opcodes.zeroPage = some op) (value : labels.value? param = some n)
      (fits : n < bus.wordValues) : Addressed bus labels m param [.value op, .value n]
  | absolute {param : Text} {op n : Nat} (bare : param.head? ≠ some '#')
      (opcode : m.opcodes.absolute = some op) (value : labels.value? param = some n)
      (far : bus.wordValues ≤ n ∨ m.opcodes.zeroPage = none) (fits : n < bus.space) :
      Addressed bus labels m param
        [.value op, .value (n % bus.wordValues), .value (n / bus.wordValues)]
  | label {param : Text} {op : Nat} (nonempty : param ≠ [])
      (free : labels.constant? param = none) (plain : ∀ c ∈ param, isReserved c = false)
      (jumps : m ∈ Mnemonic.jumps) (opcode : m.opcodes.absolute = some op) :
      Addressed bus labels m param [.value op, .label param .low, .label param .high]

theorem InstructionEncodes.addressed (h : InstructionEncodes bus labels m param words) :
    Addressed bus labels m param words := by
  have hvalue : ∀ {token : Text} {l : Literal}, labels.literal? token = some l →
      labels.value? token = some l.value := by
    intro token l hl
    simp [Labels.value?, hl]
  cases h with
  | implied opcode => exact .implied opcode
  | immediate _ parsed opcode fits =>
      obtain ⟨token, rfl, -⟩ := Operand.exists_of_parse_eq_immediate parsed
      exact .immediate opcode (hvalue (Operand.parse_eq_immediate_iff.mp parsed))
        (Literal.fits_iff.mp fits)
  | zeroPage _ parsed opcode fits =>
      obtain ⟨hne, hhash⟩ := Operand.bare_of_parse_eq_direct parsed
      exact .zeroPage hhash opcode (hvalue ((Operand.parse_eq_direct_iff hne hhash).mp parsed))
        (Literal.fits_iff.mp fits)
  | @absolute _ _ l _ parsed opcode far fits =>
      obtain ⟨hne, hhash⟩ := Operand.bare_of_parse_eq_direct parsed
      have hspace : l.value < bus.space := Literal.fits_iff.mp fits
      rw [Bus.split_eq hspace]
      refine .absolute hhash opcode (hvalue ((Operand.parse_eq_direct_iff hne hhash).mp parsed))
        (far.imp_left fun hwide => ?_) hspace
      rw [← Nat.not_lt, Bus.wordValues, ← Literal.fits_iff, hwide]
      decide
  | label _ parsed opcode jumps named =>
      obtain ⟨hne, hplain⟩ := checkName_eq_ok_iff.mp named
      exact .label hne (Operand.eq_of_parse_eq_label parsed).2 hplain
        (Mnemonic.takesLabel_iff.mp jumps) opcode

theorem Addressed.encodes (hnamed : labels.Named) (h : Addressed bus labels m param words) :
    InstructionEncodes bus labels m param words := by
  cases h with
  | implied opcode => exact .implied opcode
  | @immediate token _ _ opcode value fits =>
      obtain ⟨l, hl, rfl⟩ := Option.map_eq_some_iff.mp value
      exact .immediate (Mnemonic.implied_eq_none .immediate opcode (by decide))
        (Operand.parse_eq_immediate_iff.mpr hl) opcode (Literal.fits_iff.mpr fits)
  | zeroPage bare opcode value fits =>
      obtain ⟨l, hl, rfl⟩ := Option.map_eq_some_iff.mp value
      exact .zeroPage (Mnemonic.implied_eq_none .zeroPage opcode (by decide))
        ((Operand.parse_eq_direct_iff (hnamed.ne_nil_and_head?_ne hl).1 bare).mpr hl) opcode
        (Literal.fits_iff.mpr fits)
  | absolute bare opcode value far fits =>
      obtain ⟨l, hl, rfl⟩ := Option.map_eq_some_iff.mp value
      have hsplit := Bus.split_eq fits
      have hencodes := InstructionEncodes.absolute
        (Mnemonic.implied_eq_none .absolute opcode (by decide))
        ((Operand.parse_eq_direct_iff (hnamed.ne_nil_and_head?_ne hl).1 bare).mpr hl) opcode
        (far.imp_left fun hwide => ?_) (Literal.fits_iff.mpr fits)
      · rwa [hsplit] at hencodes
      · rw [← Bool.not_eq_true, Literal.fits_iff]
        exact Nat.not_lt.mpr hwide
  | label nonempty free plain jumps opcode =>
      exact .label (Mnemonic.implied_eq_none .absolute opcode (by decide))
        (Operand.parse_of_plain nonempty plain free) opcode (Mnemonic.takesLabel_iff.mpr jumps)
        (checkName_eq_ok_iff.mpr ⟨nonempty, plain⟩)

theorem encode_eq_ok_iff_addressed (hnamed : labels.Named) :
    encode m param bus labels = .ok words ↔ Addressed bus labels m param words :=
  encode_eq_ok_iff.trans ⟨InstructionEncodes.addressed, Addressed.encodes hnamed⟩

namespace Addressed

theorem label_not_mem (h : Addressed bus labels m param words) (hmarker : token.hasMarker = true)
    (hparam : param = token ∨ param = '#' :: token) (name : Text) (half : Half) :
    .label name half ∉ words := by
  cases h with
  | implied => simp
  | immediate => simp
  | zeroPage => simp
  | absolute => simp
  | label _ _ plain =>
      have hplain : ∀ c ∈ token, isReserved c = false := by
        intro c hc
        rcases hparam with rfl | rfl
        · exact plain c hc
        · exact plain c (List.mem_cons_of_mem _ hc)
      simp [not_hasMarker_of_plain hplain] at hmarker

theorem exists_value (h : Addressed bus labels m param words) (hmarker : token.hasMarker = true)
    (hparam : param = token ∨ param = '#' :: token) :
    ∃ n, labels.value? token = some n ∧ (n < bus.wordValues ∨ n < bus.space) := by
  have hlabel := h.label_not_mem hmarker hparam
  have hhash : token.head? ≠ some '#' := by
    intro hhead
    obtain ⟨rest, rfl⟩ := List.head?_eq_some_iff.mp hhead
    simp [Text.hasMarker, Radix.ofMarker?] at hmarker
  have hbare : param.head? ≠ some '#' → param = token := by
    intro hbare
    rcases hparam with rfl | rfl
    · rfl
    · simp at hbare
  cases h with
  | implied =>
      obtain rfl : [] = token := hbare (by simp)
      simp [Text.hasMarker] at hmarker
  | immediate _ value fits =>
      rcases hparam with rfl | hparam
      · simp at hhash
      · obtain rfl := (List.cons.inj hparam).2
        exact ⟨_, value, .inl fits⟩
  | zeroPage bare _ value fits =>
      obtain rfl := hbare bare
      exact ⟨_, value, .inl fits⟩
  | absolute bare _ value _ fits =>
      obtain rfl := hbare bare
      exact ⟨_, value, .inr fits⟩
  | label => exact absurd (by simp) (hlabel param .low)

end Addressed

theorem encode_addressing {head : List SourceLine} {constants : Labels}
    (hcollect : (Constants.collect .empty head).result = .ok constants)
    (hconsts : labels.consts = constants.consts) (bus : Bus) (m : Mnemonic) (param : Text) :
    (∀ words, encode m param bus labels = .ok words ↔ Addressed bus labels m param words) ∧
    ((∀ words, ¬Addressed bus labels m param words) → ∃ f, encode m param bus labels = .error f) ∧
    (m ∈ Mnemonic.jumps → ∃ op, m.opcodes.absolute = some op) ∧
    ∀ token : Text, token.hasMarker = true → param = token ∨ param = '#' :: token →
      (∀ words, encode m param bus labels = .ok words →
        ∀ name half, .label name half ∉ words) ∧
      ((∀ n, labels.value? token = some n → bus.wordValues ≤ n ∧ bus.space ≤ n) →
        ∃ f, encode m param bus labels = .error f) := by
  have hnamed : labels.Named := fun _ _ hname =>
    Constants.checkName_of_constant? hcollect hconsts hname
  have hiff : ∀ words, encode m param bus labels = .ok words ↔
      Addressed bus labels m param words := fun _ => encode_eq_ok_iff_addressed hnamed
  refine ⟨hiff, fun hnone => ?_, Mnemonic.exists_absolute,
    fun token hmarker hparam => ⟨fun words hwords => ?_, ?_⟩⟩
  · exact exists_eq_error fun words hwords => hnone words ((hiff words).mp hwords)
  · exact ((hiff words).mp hwords).label_not_mem hmarker hparam
  · intro hwide
    refine exists_eq_error fun words hwords => ?_
    obtain ⟨n, hn, hfits⟩ := ((hiff words).mp hwords).exists_value hmarker hparam
    have := hwide n hn
    omega

def speedHead : List SourceLine :=
  [⟨2, "SPEED = $10".toList⟩, ⟨3, "FAR = %4660".toList⟩]

def speedLabels : Labels :=
  { consts := [("SPEED".toList, ⟨2, ⟨.hex, 16⟩⟩), ("FAR".toList, ⟨3, ⟨.dec, 4660⟩⟩)] }

theorem encode_addressing_speedHead :
    (Constants.collect .empty speedHead).result = .ok speedLabels ∧
      encode .lda "FAR".toList sampleBus speedLabels =
        .ok [.value 33, .value 0x34, .value 0x12] ∧
      ∃ f, encode .jmp "$12G".toList sampleBus speedLabels = .error f := by
  have hcollect : (Constants.collect .empty speedHead).result = .ok speedLabels := by decide
  have hfar := (encode_addressing hcollect rfl sampleBus .lda "FAR".toList).1
  have hmalformed := (encode_addressing hcollect rfl sampleBus .jmp "$12G".toList).2.2.2
  refine ⟨hcollect, (hfar _).mpr ?_, (hmalformed _ (by decide) (.inl rfl)).2 ?_⟩
  · exact .absolute (n := 4660) (by decide) rfl (by decide) (.inl (by decide)) (by decide)
  · have hnone : speedLabels.value? "$12G".toList = none := by decide
    intro n hn
    exact absurd (hnone.symm.trans hn) (by simp)

end CrossAssembler
