import CrossAssembler.Source
import CrossAssembler.Proofs.Text.Trim

namespace CrossAssembler.Source

open Text

variable {src : Source}

def textOf (ls : List SourceLine) : Text :=
  ls.flatMap fun l => l.text ++ ['\n']

@[simp]
theorem textOf_nil : textOf [] = [] := rfl

@[simp]
theorem textOf_cons (l : SourceLine) (ls : List SourceLine) :
    textOf (l :: ls) = l.text ++ '\n' :: textOf ls := by
  simp [textOf]

@[simp]
theorem textOf_append (ls ls' : List SourceLine) :
    textOf (ls ++ ls') = textOf ls ++ textOf ls' := by
  simp [textOf]

theorem length_textOf_cons (l : SourceLine) (ls : List SourceLine) :
    (textOf (l :: ls)).length = l.text.length + 1 + (textOf ls).length := by
  rw [textOf_cons, List.length_append, List.length_cons]
  omega

theorem slice_append {before within after : Text} (h : src.text = before ++ within ++ after)
    {start stop : Nat} (hstart : start = before.length)
    (hstop : before.length + within.length ≤ stop) :
    src.slice ⟨start, stop⟩ = within ++ after.take (stop - (before.length + within.length)) := by
  have htake : (before ++ within ++ after).take stop =
      before ++ (within ++ after.take (stop - (before.length + within.length))) := by
    rw [List.take_append, List.length_append, List.take_of_length_le, List.append_assoc]
    rwa [List.length_append]
  rw [slice, h, htake, hstart]
  exact List.drop_left

theorem numberAt_cons_of_le {l : SourceLine} (ls : List SourceLine) {offset : Nat}
    (h : offset ≤ l.text.length) : numberAt (l :: ls) offset = l.number := by
  cases ls <;> simp [numberAt, h]

theorem numberAt_cons_of_lt {l : SourceLine} {ls : List SourceLine} {offset : Nat} (hne : ls ≠ [])
    (h : l.text.length < offset) :
    numberAt (l :: ls) offset = numberAt ls (offset - (l.text.length + 1)) := by
  cases ls with
  | nil => exact absurd rfl hne
  | cons next ls =>
      rw [numberAt, if_neg (Nat.not_le.mpr h)]
      exact hne

theorem numberAt_append (before : List SourceLine) (l : SourceLine) (after : List SourceLine)
    {k : Nat} (hk : k ≤ l.text.length) :
    numberAt (before ++ l :: after) ((textOf before).length + k) = l.number := by
  induction before with
  | nil => cases after <;> simp [numberAt, hk]
  | cons b before ih =>
      have hlength := length_textOf_cons b before
      rw [List.cons_append, numberAt_cons_of_lt (by simp) (by omega)]
      rw [show (textOf (b :: before)).length + k - (b.text.length + 1) =
        (textOf before).length + k by omega]
      exact ih

theorem piecesIn_zero (ls : List SourceLine) (start : Nat) : piecesIn ls start 0 = [] := by
  induction ls generalizing start with
  | nil => rfl
  | cons l ls ih => simp [piecesIn, ih, trim, trimStart, trimEnd]

theorem piecesIn_append (before ls : List SourceLine) (start stop : Nat) :
    piecesIn (before ++ ls) ((textOf before).length + start) ((textOf before).length + stop) =
      piecesIn ls start stop := by
  induction before with
  | nil => simp
  | cons b before ih =>
      have hnone : (b.text.take ((textOf (b :: before)).length + stop)).drop
          ((textOf (b :: before)).length + start) = [] := by
        apply List.drop_eq_nil_of_le
        rw [List.length_take, length_textOf_cons]
        omega
      have hlength : ∀ k, (textOf (b :: before)).length + k - (b.text.length + 1) =
          (textOf before).length + k := by
        intro k
        rw [length_textOf_cons]
        omega
      rw [List.cons_append, piecesIn, hnone, hlength, hlength, ih]
      rfl

theorem piecesIn_whole {body : List SourceLine} (hbody : ∀ l ∈ body, trim l.text ≠ [])
    (ls : List SourceLine) (stop : Nat) :
    piecesIn (body ++ ls) 0 ((textOf body).length + stop) =
      (body.map fun l => ⟨l.number, trim l.text⟩) ++ piecesIn ls 0 stop := by
  induction body with
  | nil => simp
  | cons l body ih =>
      have hwhole : l.text.take ((textOf (l :: body)).length + stop) = l.text := by
        apply List.take_of_length_le
        rw [length_textOf_cons]
        omega
      have hrest : (textOf (l :: body)).length + stop - (l.text.length + 1) =
          (textOf body).length + stop := by
        rw [length_textOf_cons]
        omega
      have hpiece : (trim l.text).isEmpty = false := by simpa using hbody l List.mem_cons_self
      rw [List.cons_append, piecesIn, hwhole, hrest, List.drop_zero, hpiece, Nat.zero_sub,
        ih fun l' hl' => hbody l' (List.mem_cons_of_mem l hl')]
      rfl

theorem linesIn_body {before body after : List SourceLine} {opening : SourceLine}
    (hsrc : src.lines = before ++ opening :: (body ++ after)) {start : Nat}
    (hstart : start ≤ opening.text.length) (hblank : Blank (opening.text.drop start))
    (hbody : ∀ l ∈ body, trim l.text ≠ []) :
    src.linesIn ⟨(textOf before).length + start,
      (textOf before).length + (opening.text.length + 1 + (textOf body).length)⟩ =
      body.map fun l => ⟨l.number, trim l.text⟩ := by
  have hwhole : opening.text.take (opening.text.length + 1 + (textOf body).length) =
      opening.text := by
    apply List.take_of_length_le
    omega
  have hstop : opening.text.length + 1 + (textOf body).length - (opening.text.length + 1) =
      (textOf body).length + 0 := by omega
  rw [linesIn, hsrc, piecesIn_append, piecesIn, hwhole, hblank.trim_eq, hstop,
    Nat.sub_eq_zero_of_le (Nat.le_succ_of_le hstart), piecesIn_whole hbody, piecesIn_zero]
  simp

end CrossAssembler.Source
