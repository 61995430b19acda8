import CrossAssembler.Proofs.Text.Search

namespace CrossAssembler

structure OctetSpan where
  start : Nat
  stop : Nat
deriving DecidableEq, Repr

namespace Text

variable {t pat before within after : Text} {s : OctetSpan} {n p q : Nat}

def octets (t : Text) : Nat :=
  (String.ofList t).utf8ByteSize

@[simp]
theorem octets_nil : octets [] = 0 := rfl

@[simp]
theorem octets_cons (c : Char) (t : Text) : octets (c :: t) = c.utf8Size + octets t := by
  rw [octets, String.ofList_cons, String.utf8ByteSize_append, String.utf8ByteSize_singleton]
  rfl

@[simp]
theorem octets_append (s t : Text) : octets (s ++ t) = octets s + octets t := by
  rw [octets, String.ofList_append, String.utf8ByteSize_append]
  rfl

def octetAt (t : Text) (n : Nat) : Nat :=
  octets (t.take n)

theorem octetAt_length (t : Text) : t.octetAt t.length = octets t := by
  rw [octetAt, List.take_length]

theorem octetAt_of_length_le (h : t.length ≤ n) : t.octetAt n = octets t := by
  rw [octetAt, List.take_of_length_le h]

theorem octetAt_append (before after : Text) :
    (before ++ after).octetAt before.length = octets before := by
  rw [octetAt, List.take_left]

theorem octetAt_le_octetAt (t : Text) (h : p ≤ q) : t.octetAt p ≤ t.octetAt q := by
  obtain ⟨n, rfl⟩ := Nat.exists_eq_add_of_le h
  rw [octetAt, octetAt, List.take_add, octets_append]
  exact Nat.le_add_right _ _

theorem octetAt_le_octets (t : Text) (n : Nat) : t.octetAt n ≤ octets t := by
  have hsplit := octets_append (t.take n) (t.drop n)
  rw [List.take_append_drop] at hsplit
  rw [octetAt]
  omega

theorem octetAt_lt_octetAt (h : p < q) (hp : p < t.length) : t.octetAt p < t.octetAt q := by
  refine Nat.lt_of_lt_of_le ?_ (t.octetAt_le_octetAt h)
  have hsize := Char.utf8Size_pos t[p]
  rw [octetAt, octetAt, List.take_succ_eq_append_getElem hp, octets_append, octets_cons]
  omega

theorem octetAt_le_iff (hp : p ≤ t.length) : t.octetAt p ≤ t.octetAt q ↔ p ≤ q := by
  refine ⟨fun h => ?_, t.octetAt_le_octetAt⟩
  by_contra hlt
  have := octetAt_lt_octetAt (t := t) (Nat.not_le.mp hlt) (by omega)
  omega

theorem octetAt_add (t : Text) (p n : Nat) :
    t.octetAt (p + n) = t.octetAt p + octetAt (t.drop p) n := by
  rw [octetAt, List.take_add, octets_append]
  rfl

theorem take_append_drop_take {start stop : Nat} (h : start ≤ stop) :
    t.take start ++ (t.take stop).drop start = t.take stop := by
  have := List.take_append_drop start (t.take stop)
  rwa [List.take_take, Nat.min_eq_left h] at this

theorem octetAt_add_octets {start stop : Nat} (h : start ≤ stop) :
    t.octetAt start + octets ((t.take stop).drop start) = t.octetAt stop := by
  rw [octetAt, ← octets_append, take_append_drop_take h]
  rfl

theorem octetAt_add_of_isPrefix (h : pat <+: t.drop p) :
    t.octetAt (p + pat.length) = t.octetAt p + octets pat := by
  obtain ⟨rest, hrest⟩ := h
  rw [octetAt_add, ← hrest, octetAt_append]

theorem exists_char_at (h : n < octets t) :
    ∃ k < t.length, t.octetAt k ≤ n ∧ n < t.octetAt (k + 1) := by
  induction t generalizing n with
  | nil => simp at h
  | cons c t ih =>
      have hcons : ∀ k, octetAt (c :: t) (k + 1) = c.utf8Size + octetAt t k := by
        intro k
        rw [octetAt, List.take_succ_cons, octets_cons]
        rfl
      rcases Nat.lt_or_ge n c.utf8Size with hlt | hge
      · refine ⟨0, Nat.succ_pos _, Nat.zero_le _, ?_⟩
        rw [hcons]
        omega
      · rw [octets_cons] at h
        obtain ⟨k, hk, hle, hlt⟩ := ih (n := n - c.utf8Size) (by omega)
        refine ⟨k + 1, Nat.succ_lt_succ hk, ?_, ?_⟩
        · rw [hcons]
          omega
        · rw [hcons]
          omega

def cutOctets? : Text → Nat → Option (Text × Text)
  | t, 0 => some ([], t)
  | [], _ + 1 => none
  | c :: t, n + 1 =>
      if c.utf8Size ≤ n + 1 then
        (cutOctets? t (n + 1 - c.utf8Size)).map fun (front, back) => (c :: front, back)
      else none

def sliceOctets? (t : Text) (s : OctetSpan) : Option Text := do
  let (front, _) ← cutOctets? t s.stop
  let (_, within) ← cutOctets? front s.start
  return within

theorem cutOctets?_eq_some_iff :
    cutOctets? t n = some (before, after) ↔ t = before ++ after ∧ octets before = n := by
  fun_induction cutOctets? t n generalizing before with
  | case1 t =>
      cases before with
      | nil => simp
      | cons c before =>
          have := Char.utf8Size_pos c
          simp
          omega
  | case2 n => cases before <;> simp
  | case3 c t n hsize ih =>
      cases before with
      | nil => simp
      | cons d before =>
          simp only [Option.map_eq_some_iff, Prod.exists, Prod.mk.injEq, List.cons.injEq,
            List.cons_append, octets_cons]
          constructor
          · rintro ⟨front, back, hcut, ⟨rfl, rfl⟩, rfl⟩
            obtain ⟨rfl, hn⟩ := ih.mp hcut
            exact ⟨⟨rfl, rfl⟩, by omega⟩
          · rintro ⟨⟨rfl, rfl⟩, hn⟩
            exact ⟨before, after, ih.mpr ⟨rfl, by omega⟩, ⟨rfl, rfl⟩, rfl⟩
  | case4 c t n hsize =>
      cases before with
      | nil => simp
      | cons d before =>
          simp only [reduceCtorEq, false_iff, List.cons_append, List.cons.injEq, octets_cons]
          rintro ⟨⟨rfl, rfl⟩, hn⟩
          omega

theorem sliceOctets?_eq_some_iff :
    t.sliceOctets? s = some within ↔ ∃ before after, t = before ++ within ++ after ∧
      octets before = s.start ∧ octets (before ++ within) = s.stop := by
  simp only [sliceOctets?, Option.bind_eq_bind, Option.bind_eq_some_iff, Prod.exists,
    cutOctets?_eq_some_iff, Option.pure_def, Option.some.injEq]
  constructor
  · rintro ⟨front, after, ⟨rfl, hstop⟩, before, _, ⟨rfl, hstart⟩, rfl⟩
    exact ⟨before, after, rfl, hstart, hstop⟩
  · rintro ⟨before, after, rfl, hstart, hstop⟩
    exact ⟨before ++ within, after, ⟨rfl, hstop⟩, before, within, ⟨rfl, hstart⟩, rfl⟩

def findOctet? (pat : Text) : Text → Option Nat
  | [] => if pat.isEmpty then some 0 else none
  | c :: t =>
      if pat.isPrefixOf (c :: t) then some 0 else (findOctet? pat t).map (· + c.utf8Size)

theorem findOctet?_eq (pat t : Text) : findOctet? pat t = (find? pat t).map t.octetAt := by
  induction t with
  | nil => cases pat <;> simp [findOctet?, find?, octetAt]
  | cons c t ih =>
      rw [findOctet?, find?, ih]
      split
      · rfl
      · simp [octetAt, Function.comp_def, Nat.add_comm]

def matchesFrom (pat : Text) : Nat → Nat → Text → List Nat
  | _, _, [] => []
  | skip + 1, offset, c :: t => matchesFrom pat skip (offset + c.utf8Size) t
  | 0, offset, c :: t =>
      let rest := offset + c.utf8Size
      -- an occurrence that overlaps this one is not looked for
      if pat.isPrefixOf (c :: t) then offset :: matchesFrom pat (pat.length - 1) rest t
      else matchesFrom pat 0 rest t

theorem matchesFrom_eq {c : Char} {cs : Text} (hc : c ∉ cs) {skip : Nat}
    (hskip : ∀ j < skip, ¬c :: cs <+: t.drop j) (offset : Nat) :
    matchesFrom (c :: cs) skip offset t =
      (occurrences (c :: cs) t).map fun k => offset + t.octetAt k := by
  induction t generalizing skip offset with
  | nil => simp [matchesFrom, occurrences]
  | cons d t ih =>
      have hshift : ((occurrences (c :: cs) t).map (· + 1)).map
          (fun k => offset + octetAt (d :: t) k) =
          (occurrences (c :: cs) t).map fun k => offset + d.utf8Size + octetAt t k := by
        simp [octetAt, Nat.add_assoc]
      have hpre : (c :: cs).isPrefixOf (d :: t) = true ↔ c :: cs <+: d :: t :=
        List.isPrefixOf_iff_prefix
      rw [occurrences]
      cases skip with
      | succ skip =>
          rw [matchesFrom, if_neg (mt hpre.mp (hskip 0 (Nat.succ_pos _))), hshift]
          exact ih (fun j hj => hskip (j + 1) (Nat.succ_lt_succ hj)) _
      | zero =>
          rw [matchesFrom]
          split
          · rename_i hmatch
            obtain ⟨rfl, rest, rfl⟩ := List.cons_prefix_cons.mp (hpre.mp hmatch)
            rw [List.map_cons, hshift, ih]
            · rfl
            · intro j hj hover
              rw [List.length_cons, Nat.add_sub_cancel] at hj
              rw [List.drop_append_of_le_length (Nat.le_of_lt hj), List.drop_eq_getElem_cons hj,
                List.cons_append, List.cons_prefix_cons] at hover
              exact hc (hover.1 ▸ List.getElem_mem hj)
          · rw [hshift]
            exact ih (by simp) _

theorem sliceOctets?_octetAt {start stop : Nat} (hle : start ≤ stop) :
    t.sliceOctets? ⟨t.octetAt start, t.octetAt stop⟩ = some ((t.take stop).drop start) := by
  refine sliceOctets?_eq_some_iff.mpr ⟨t.take start, t.drop stop, ?_, rfl, ?_⟩
  · rw [take_append_drop_take hle, List.take_append_drop]
  · rw [take_append_drop_take hle]
    rfl

end Text

end CrossAssembler
