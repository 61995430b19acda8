import CrossAssembler.Proofs.Source.Joining
import CrossAssembler.Proofs.Source.Numbering
import CrossAssembler.Proofs.Text.Octets

namespace CrossAssembler

open Text

inductive Halt where
  | badSlice
  | fault (f : Fault)
deriving DecidableEq, Repr

def Text.octetSlice (t : Text) (s : OctetSpan) : Except Halt Text :=
  match t.sliceOctets? s with
  | none => .error .badSlice
  | some within => .ok within

theorem Text.octetSlice_eq_ok_iff {t within : Text} {s : OctetSpan} :
    t.octetSlice s = .ok within ↔ t.sliceOctets? s = some within := by
  rw [octetSlice]
  cases t.sliceOctets? s <;> simp

structure IndexedText where
  text : Text
  starts : List (Nat × Nat)
deriving DecidableEq, Repr

def bisect (keys : List Nat) (key lo hi : Nat) (h : hi ≤ keys.length) : Except Nat Nat :=
  if hlt : lo < hi then
    let mid := lo + (hi - lo) / 2
    have hmid : mid < keys.length := by omega
    if keys[mid] = key then .ok mid
    else if keys[mid] < key then bisect keys key (mid + 1) hi h
    else bisect keys key lo mid (by omega)
  else .error lo
termination_by hi - lo

namespace IndexedText

def push (x : IndexedText) (number : Nat) (code : Text) : IndexedText :=
  { text := x.text ++ (code ++ ['\n'])
    starts := x.starts ++ [(octets x.text, number)] }

def add (x : IndexedText) (row : Text × Nat) : IndexedText :=
  match row.1.significant? with
  | none => x
  | some code => x.push row.2 code

def normalize (raw : Text) : IndexedText :=
  (raw.lines.zipIdx 1).foldl add ⟨[], []⟩

def all (x : IndexedText) : OctetSpan :=
  ⟨0, octets x.text⟩

def slice (x : IndexedText) (s : OctetSpan) : Except Halt Text :=
  x.text.octetSlice s

def numberOf (x : IndexedText) (i : Nat) : Nat :=
  x.starts[i]?.elim 0 Prod.snd

def lineOf (x : IndexedText) (offset : Nat) : Nat :=
  let keys := x.starts.map Prod.fst
  match bisect keys offset 0 keys.length (Nat.le_refl _) with
  | .ok i => x.numberOf i
  | .error 0 => 0
  | .error (i + 1) => x.numberOf i

def chunkLines (x : IndexedText) : Nat → List Text → List SourceLine
  | _, [] => []
  | offset, chunk :: chunks =>
      let code := trim chunk
      let rest := x.chunkLines (offset + octets chunk + 1) chunks
      if code.isEmpty then rest else ⟨x.lineOf offset, code⟩ :: rest

def linesIn (x : IndexedText) (s : OctetSpan) : Except Halt (List SourceLine) :=
  (x.slice s).map fun within => x.chunkLines s.start (within.splitOn '\n')

end IndexedText

section Bisect

variable {keys : List Nat} {key lo hi i : Nat} {h : hi ≤ keys.length}

theorem getElem?_of_bisect_eq_ok (hfound : bisect keys key lo hi h = .ok i) :
    keys[i]? = some key := by
  fun_induction bisect keys key lo hi h with
  | case1 lo hi h hlt mid hmid heq =>
      obtain rfl := Except.ok.inj hfound
      rw [List.getElem?_eq_getElem hmid, heq]
  | case2 lo hi h hlt mid hmid hne hless ih => exact ih hfound
  | case3 lo hi h hlt mid hmid hne hless ih => exact ih hfound
  | case4 => simp at hfound

theorem of_bisect_eq_error (hsorted : keys.Pairwise (· < ·))
    (hlo : ∀ j k, keys[j]? = some k → j < lo → k < key)
    (hhi : ∀ j k, keys[j]? = some k → hi ≤ j → key < k)
    (hle : lo ≤ hi) (hmissing : bisect keys key lo hi h = .error i) :
    i ≤ keys.length ∧ (∀ j k, keys[j]? = some k → j < i → k < key) ∧
      ∀ j k, keys[j]? = some k → i ≤ j → key < k := by
  have horder := List.pairwise_iff_getElem.mp hsorted
  fun_induction bisect keys key lo hi h with
  | case1 => simp at hmissing
  | case2 lo hi h hlt mid hmid hne hless ih =>
      refine ih (fun j k hj hjmid => ?_) hhi (by omega) hmissing
      obtain ⟨hjlt, rfl⟩ := List.getElem?_eq_some_iff.mp hj
      rcases Nat.lt_or_eq_of_le (Nat.le_of_lt_succ hjmid) with hjmid | rfl
      · exact Nat.lt_trans (horder j mid hjlt hmid hjmid) hless
      · exact hless
  | case3 lo hi h hlt mid hmid hne hless ih =>
      have hgreater : key < keys[mid] := by omega
      refine ih hlo (fun j k hj hmidj => ?_) (by omega) hmissing
      obtain ⟨hjlt, rfl⟩ := List.getElem?_eq_some_iff.mp hj
      rcases Nat.lt_or_eq_of_le hmidj with hmidj | rfl
      · exact Nat.lt_trans hgreater (horder mid j hmid hjlt hmidj)
      · exact hgreater
  | case4 lo hi h hge =>
      obtain rfl := Except.error.inj hmissing
      exact ⟨by omega, hlo, fun j k hj hij => hhi j k hj (by omega)⟩

theorem of_bisect_keys_eq_error (hsorted : keys.Pairwise (· < ·))
    (hmissing : bisect keys key 0 keys.length (Nat.le_refl _) = .error i) :
    i ≤ keys.length ∧ (∀ j k, keys[j]? = some k → j < i → k < key) ∧
      ∀ j k, keys[j]? = some k → i ≤ j → key < k := by
  refine of_bisect_eq_error hsorted (by simp) (fun j k hj hle => ?_) (Nat.zero_le _) hmissing
  rw [List.getElem?_eq_none hle] at hj
  simp at hj

end Bisect

namespace IndexedText

variable {x : IndexedText}

theorem lineOf_eq_of_between {before after : List (Nat × Nat)} {start number offset : Nat}
    (hstarts : x.starts = before ++ (start, number) :: after)
    (hsorted : (x.starts.map Prod.fst).Pairwise (· < ·)) (hle : start ≤ offset)
    (hafter : ∀ row ∈ after, offset < row.1) : x.lineOf offset = number := by
  have hkeys : x.starts.map Prod.fst =
      before.map Prod.fst ++ start :: after.map Prod.fst := by
    rw [hstarts, List.map_append, List.map_cons]
  have hhere : (x.starts.map Prod.fst)[before.length]? = some start := by
    simp [hkeys]
  have hnumber : x.numberOf before.length = number := by
    simp [numberOf, hstarts]
  have hearlier : ∀ j k, (x.starts.map Prod.fst)[j]? = some k → j < before.length → k < start := by
    intro j k hj hlt
    rw [hkeys, List.pairwise_append] at hsorted
    rw [hkeys, List.getElem?_append_left (by rwa [List.length_map])] at hj
    exact hsorted.2.2 k (List.mem_of_getElem? hj) start List.mem_cons_self
  have hlater : ∀ j k, (x.starts.map Prod.fst)[j]? = some k → before.length < j → offset < k := by
    intro j k hj hlt
    obtain ⟨m, rfl⟩ := Nat.exists_eq_add_of_lt hlt
    rw [hkeys, List.getElem?_append_right (by rw [List.length_map]; omega), List.length_map,
      show before.length + m + 1 - before.length = m + 1 by omega, List.getElem?_cons_succ] at hj
    obtain ⟨row, hrow, rfl⟩ := List.mem_map.mp (List.mem_of_getElem? hj)
    exact hafter row hrow
  unfold lineOf
  dsimp only
  split
  · rename_i i hfound
    have hi := getElem?_of_bisect_eq_ok hfound
    rcases Nat.lt_trichotomy i before.length with hlt | rfl | hlt
    · exact absurd (hearlier i offset hi hlt) (by omega)
    · exact hnumber
    · exact absurd (hlater i offset hi hlt) (Nat.lt_irrefl _)
  · rename_i hmissing
    obtain ⟨-, -, hgreater⟩ := of_bisect_keys_eq_error hsorted hmissing
    exact absurd (hgreater _ _ hhere (Nat.zero_le _)) (by omega)
  · rename_i i hmissing
    obtain ⟨hlength, hless, hgreater⟩ := of_bisect_keys_eq_error hsorted hmissing
    rcases Nat.lt_trichotomy i before.length with hlt | rfl | hlt
    · exact absurd (hgreater _ _ hhere hlt) (by omega)
    · exact hnumber
    · have hi := List.getElem?_eq_getElem (l := x.starts.map Prod.fst) (i := i) (by omega)
      have := hless _ _ hi (Nat.lt_succ_self i)
      exact absurd (hlater _ _ hi hlt) (by omega)

end IndexedText

namespace Source

variable {src : Source} {ls before after : List SourceLine} {l : SourceLine} {start stop : Nat}

def startsFrom : Nat → List SourceLine → List (Nat × Nat)
  | _, [] => []
  | offset, l :: ls => (offset, l.number) :: startsFrom (offset + octets l.text + 1) ls

def indexed (src : Source) : IndexedText :=
  ⟨src.text, startsFrom 0 src.lines⟩

def octetSpan (src : Source) (s : Span) : OctetSpan :=
  ⟨src.text.octetAt s.start, src.text.octetAt s.stop⟩

theorem octets_newline : '\n'.utf8Size = 1 := rfl

theorem octets_textOf_cons (l : SourceLine) (ls : List SourceLine) :
    octets (textOf (l :: ls)) = octets l.text + 1 + octets (textOf ls) := by
  rw [textOf_cons, octets_append, octets_cons, octets_newline, Nat.add_assoc]

theorem startsFrom_append (offset : Nat) (ls ls' : List SourceLine) :
    startsFrom offset (ls ++ ls') =
      startsFrom offset ls ++ startsFrom (offset + octets (textOf ls)) ls' := by
  induction ls generalizing offset with
  | nil => rfl
  | cons l ls ih =>
      rw [List.cons_append, startsFrom, ih, octets_textOf_cons, startsFrom]
      simp only [List.cons_append, Nat.add_assoc]

theorem le_of_mem_startsFrom {offset : Nat} {row : Nat × Nat} (h : row ∈ startsFrom offset ls) :
    offset ≤ row.1 := by
  induction ls generalizing offset with
  | nil => simp [startsFrom] at h
  | cons l ls ih =>
      rcases List.mem_cons.mp h with rfl | h
      · exact Nat.le_refl _
      · have := ih h
        omega

theorem pairwise_startsFrom (offset : Nat) (ls : List SourceLine) :
    (startsFrom offset ls).Pairwise (·.1 < ·.1) := by
  induction ls generalizing offset with
  | nil => exact .nil
  | cons l ls ih =>
      refine .cons (fun row hrow => ?_) (ih _)
      have := le_of_mem_startsFrom hrow
      dsimp only
      omega

theorem lineOf_indexed (hsrc : src.lines = before ++ l :: after) {k : Nat}
    (hk : k ≤ octets l.text) :
    src.indexed.lineOf (octets (textOf before) + k) = l.number := by
  have hstarts : src.indexed.starts = startsFrom 0 before ++
      (octets (textOf before), l.number) ::
        startsFrom (octets (textOf before) + octets l.text + 1) after := by
    rw [indexed, hsrc, startsFrom_append, startsFrom, Nat.zero_add]
  refine IndexedText.lineOf_eq_of_between hstarts ?_ (Nat.le_add_right _ _) fun row hrow => ?_
  · rw [List.pairwise_map]
    exact pairwise_startsFrom 0 src.lines
  · have := le_of_mem_startsFrom hrow
    omega

theorem foldl_add_eq (ls : List Text) (n : Nat) (x : IndexedText) :
    (ls.zipIdx n).foldl IndexedText.add x =
      ⟨x.text ++ textOf (significant n ls),
        x.starts ++ startsFrom (octets x.text) (significant n ls)⟩ := by
  induction ls generalizing n x with
  | nil => simp [significant, startsFrom]
  | cons line ls ih =>
      rw [List.zipIdx_cons, List.foldl_cons, ih, IndexedText.add]
      dsimp only
      split
      · rename_i hnone
        rw [significant_cons_none hnone]
      · rename_i code hcode
        rw [significant_cons_some hcode, IndexedText.push, startsFrom, textOf_cons]
        simp [Nat.add_assoc, octets_newline]

theorem normalize_indexed (raw : Text) :
    IndexedText.normalize raw = (Source.normalize raw).indexed := by
  rw [IndexedText.normalize, foldl_add_eq]
  rfl

theorem octetAt_textOf_cons_of_le (h : start ≤ l.text.length) :
    octetAt (textOf (l :: ls)) start = octetAt l.text start := by
  rw [octetAt, textOf_cons, List.take_append_of_le_length h]
  rfl

theorem octetAt_textOf_cons_of_lt (h : l.text.length < start) :
    octetAt (textOf (l :: ls)) start =
      octets l.text + 1 + octetAt (textOf ls) (start - (l.text.length + 1)) := by
  obtain ⟨k, rfl⟩ := Nat.exists_eq_add_of_lt h
  rw [show l.text.length + k + 1 - (l.text.length + 1) = k by omega, octetAt, textOf_cons,
    Nat.add_assoc, List.take_length_add_append, octets_append, List.take_succ_cons, octets_cons,
    octets_newline, ← Nat.add_assoc]
  rfl

theorem drop_take_across {t rest : Text} {c : Char} (hstart : start ≤ t.length)
    (hstop : t.length < stop) :
    ((t ++ c :: rest).take stop).drop start =
      t.drop start ++ c :: rest.take (stop - (t.length + 1)) := by
  obtain ⟨k, rfl⟩ := Nat.exists_eq_add_of_lt hstop
  rw [show t.length + k + 1 - (t.length + 1) = k by omega, Nat.add_assoc,
    List.take_length_add_append, List.take_succ_cons, List.drop_append_of_le_length hstart]

def pieceOf (number : Nat) (chunk : Text) : List SourceLine :=
  if (trim chunk).isEmpty then [] else [⟨number, trim chunk⟩]

theorem piecesIn_of_lt (h : l.text.length < start) :
    piecesIn (l :: ls) start stop =
      piecesIn ls (start - (l.text.length + 1)) (stop - (l.text.length + 1)) := by
  have hnone : (l.text.take stop).drop start = [] := by
    apply List.drop_eq_nil_of_le
    rw [List.length_take]
    omega
  rw [piecesIn, hnone]
  rfl

theorem piecesIn_across (hstart : start ≤ l.text.length) (hstop : l.text.length < stop) :
    piecesIn (l :: ls) start stop =
      pieceOf l.number (l.text.drop start) ++ piecesIn ls 0 (stop - (l.text.length + 1)) := by
  rw [piecesIn, List.take_of_length_le (Nat.le_of_lt hstop),
    Nat.sub_eq_zero_of_le (Nat.le_succ_of_le hstart), pieceOf]
  cases (trim (l.text.drop start)).isEmpty <;> rfl

theorem piecesIn_inside (h : stop ≤ l.text.length) :
    piecesIn (l :: ls) start stop = pieceOf l.number ((l.text.take stop).drop start) :=
  piecesIn_cons_of_le h

theorem chunkLines_cons (x : IndexedText) (offset : Nat) (chunk : Text) (chunks : List Text) :
    x.chunkLines offset (chunk :: chunks) =
      pieceOf (x.lineOf offset) chunk ++ x.chunkLines (offset + octets chunk + 1) chunks := by
  rw [IndexedText.chunkLines, pieceOf]
  cases (trim chunk).isEmpty <;> rfl

def PartOf (src : Source) (l : SourceLine) (offset : Nat) (chunk : Text) : Prop :=
  ∃ before after m, src.lines = before ++ l :: after ∧ offset = octets (textOf before) + m ∧
    m + octets chunk ≤ octets l.text ∧ '\n' ∉ chunk

inductive Chunked (src : Source) : Nat → Text → List SourceLine → Prop
  | nil (offset : Nat) : Chunked src offset [] []
  | last {offset : Nat} {chunk : Text} {l : SourceLine} (part : src.PartOf l offset chunk) :
      Chunked src offset chunk (pieceOf l.number chunk)
  | cons {offset : Nat} {chunk t : Text} {l : SourceLine} {found : List SourceLine}
      (part : src.PartOf l offset chunk)
      (rest : Chunked src (offset + octets chunk + 1) t found) :
      Chunked src offset (chunk ++ '\n' :: t) (pieceOf l.number chunk ++ found)

theorem PartOf.lineOf_eq {offset : Nat} {chunk : Text} (h : src.PartOf l offset chunk) :
    src.indexed.lineOf offset = l.number := by
  obtain ⟨before, after, m, hsrc, rfl, hm, -⟩ := h
  exact lineOf_indexed hsrc (by omega)

theorem Chunked.chunkLines_eq {offset : Nat} {t : Text} {found : List SourceLine}
    (h : Chunked src offset t found) :
    src.indexed.chunkLines offset (t.splitOn '\n') = found := by
  induction h with
  | nil offset => rfl
  | last part =>
      have hnumber := part.lineOf_eq
      obtain ⟨-, -, -, -, -, -, hchunk⟩ := part
      rw [List.splitOn_eq_singleton hchunk, chunkLines_cons, hnumber]
      exact List.append_nil _
  | cons part _ ih =>
      have hnumber := part.lineOf_eq
      obtain ⟨-, -, -, -, -, -, hchunk⟩ := part
      rw [List.splitOn_append_cons_self_of_not_mem hchunk, chunkLines_cons, hnumber, ih]

theorem chunked_piecesIn (hsrc : src.lines = before ++ ls) (hline : ∀ l ∈ ls, '\n' ∉ l.text)
    (hle : start ≤ stop) :
    Chunked src (octets (textOf before) + octetAt (textOf ls) start)
      (((textOf ls).take stop).drop start) (piecesIn ls start stop) := by
  induction ls generalizing before start stop with
  | nil =>
      rw [textOf_nil, List.take_nil, List.drop_nil, piecesIn]
      exact .nil _
  | cons l ls ih =>
      have hl := hline l List.mem_cons_self
      have hafter : octets (textOf (before ++ [l])) =
          octets (textOf before) + (octets l.text + 1) := by
        rw [textOf_append, octets_append, octets_textOf_cons]
        rfl
      have hrest : ∀ start stop, start ≤ stop → Chunked src
          (octets (textOf before) + (octets l.text + 1) + octetAt (textOf ls) start)
          (((textOf ls).take stop).drop start) (piecesIn ls start stop) := by
        intro start stop hle
        rw [← hafter]
        exact ih (by simp [hsrc]) (fun l' hl' => hline l' (List.mem_cons_of_mem l hl')) hle
      rcases Nat.lt_or_ge l.text.length start with hstart | hstart
      · rw [octetAt_textOf_cons_of_lt hstart, textOf_cons, drop_take_of_lt hstart,
          piecesIn_of_lt hstart, ← Nat.add_assoc]
        exact hrest _ _ (by omega)
      · rw [octetAt_textOf_cons_of_le hstart, textOf_cons]
        rcases Nat.lt_or_ge l.text.length stop with hstop | hstop
        · have hwhole : octetAt l.text start + octets (l.text.drop start) = octets l.text := by
            rw [octetAt, ← octets_append, List.take_append_drop]
          rw [drop_take_across hstart hstop, piecesIn_across hstart hstop]
          refine .cons ⟨before, ls, _, hsrc, rfl, Nat.le_of_eq hwhole, fun hmem =>
            hl (List.mem_of_mem_drop hmem)⟩ ?_
          rw [Nat.add_assoc _ (octetAt _ _), hwhole, Nat.add_assoc]
          exact hrest 0 _ (Nat.zero_le _)
        · -- the span ends within the line
          rw [List.take_append_of_le_length hstop, piecesIn_inside hstop]
          refine .last ⟨before, ls, _, hsrc, rfl, ?_, fun hmem =>
            hl (List.mem_of_mem_take (List.mem_of_mem_drop hmem))⟩
          rw [octetAt_add_octets hle, ← octetAt_length]
          exact octetAt_le_octetAt _ hstop

theorem slice_indexed {s : Span} (h : s.start ≤ s.stop) :
    src.indexed.slice (src.octetSpan s) = .ok (src.slice s) :=
  octetSlice_eq_ok_iff.mpr (sliceOctets?_octetAt h)

theorem exists_span_of_slice {s : OctetSpan} {within : Text}
    (h : src.indexed.slice s = .ok within) :
    ∃ chars : Span, src.octetSpan chars = s ∧ chars.start ≤ chars.stop ∧
      src.slice chars = within := by
  obtain ⟨before, after, htext, hstart, hstop⟩ :=
    sliceOctets?_eq_some_iff.mp (octetSlice_eq_ok_iff.mp h)
  have htext : src.text = before ++ within ++ after := htext
  refine ⟨⟨before.length, (before ++ within).length⟩, ?_, ?_, ?_⟩
  · rw [octetSpan, htext, octetAt_append, List.append_assoc, octetAt_append, hstart, hstop]
  · rw [List.length_append]
    exact Nat.le_add_right _ _
  · rw [slice, htext, List.take_left, List.drop_left]

theorem chunked_linesIn (hline : ∀ l ∈ src.lines, '\n' ∉ l.text) {s : Span}
    (h : s.start ≤ s.stop) :
    Chunked src (src.octetSpan s).start (src.slice s) (src.linesIn s) := by
  have hchunked : Chunked src (octets (textOf []) + octetAt (textOf src.lines) s.start)
      (src.slice s) (src.linesIn s) := chunked_piecesIn rfl hline h
  rwa [textOf_nil, octets_nil, Nat.zero_add] at hchunked

theorem linesIn_indexed (hline : ∀ l ∈ src.lines, '\n' ∉ l.text) {s : Span}
    (h : s.start ≤ s.stop) : src.indexed.linesIn (src.octetSpan s) = .ok (src.linesIn s) := by
  rw [IndexedText.linesIn, slice_indexed h]
  exact congrArg Except.ok (chunked_linesIn hline h).chunkLines_eq

theorem exists_line_at {k : Nat} (h : k < (textOf ls).length) :
    ∃ before l after j, ls = before ++ l :: after ∧ k = (textOf before).length + j ∧
      j ≤ l.text.length := by
  induction ls generalizing k with
  | nil => simp at h
  | cons l ls ih =>
      rcases Nat.lt_or_ge l.text.length k with hlt | hle
      · obtain ⟨m, rfl⟩ := Nat.exists_eq_add_of_lt hlt
        rw [length_textOf_cons] at h
        obtain ⟨before, l', after, j, rfl, rfl, hj⟩ := ih (k := m) (by omega)
        refine ⟨l :: before, l', after, j, rfl, ?_, hj⟩
        rw [length_textOf_cons]
        omega
      · exact ⟨[], l, ls, k, rfl, (Nat.zero_add k).symm, hle⟩

theorem exists_octet_in_line {offset k j : Nat} (hls : ls = before ++ l :: after)
    (hk : k = (textOf before).length + j) (hj : j ≤ l.text.length)
    (hle : octetAt (textOf ls) k ≤ offset) (hlt : offset < octetAt (textOf ls) (k + 1)) :
    ∃ m ≤ octets l.text, offset = octets (textOf before) + m := by
  have hshift : ∀ i, octetAt (textOf ls) ((textOf before).length + i) =
      octets (textOf before) + octetAt (textOf (l :: after)) i := by
    intro i
    rw [octetAt_add, hls, textOf_append, octetAt_append, List.drop_left]
  have hline : octetAt (textOf (l :: after)) (l.text.length + 1) = octets l.text + 1 := by
    rw [octetAt_textOf_cons_of_lt (Nat.lt_succ_self _), Nat.sub_self]
    rfl
  have hstop : octetAt (textOf (l :: after)) (j + 1) ≤ octets l.text + 1 := by
    rw [← hline]
    exact octetAt_le_octetAt _ (Nat.succ_le_succ hj)
  rw [hk, hshift] at hle
  rw [hk, Nat.add_assoc, hshift] at hlt
  exact ⟨offset - octets (textOf before), by omega, by omega⟩

theorem lineOf_indexed_char {offset k : Nat} (hle : src.text.octetAt k ≤ offset)
    (hlt : offset < src.text.octetAt (k + 1)) : src.indexed.lineOf offset = src.lineOf k := by
  have hk : k < (textOf src.lines).length := by
    by_contra hge
    have hlength : src.text.length ≤ k := Nat.not_lt.mp hge
    rw [octetAt_of_length_le hlength] at hle
    rw [octetAt_of_length_le (Nat.le_succ_of_le hlength)] at hlt
    omega
  obtain ⟨before, l, after, j, hlines, hkj, hj⟩ := exists_line_at hk
  obtain ⟨m, hm, rfl⟩ := exists_octet_in_line hlines hkj hj hle hlt
  rw [lineOf_indexed hlines hm, lineOf, hlines, hkj]
  exact (numberAt_append before l after hj).symm

end Source

end CrossAssembler
