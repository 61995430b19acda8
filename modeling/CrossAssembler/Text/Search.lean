import CrossAssembler.Text.Blank

namespace CrossAssembler.Text

def find? (pat : Text) : Text → Option Nat
  | [] => if pat.isEmpty then some 0 else none
  | c :: t => if pat.isPrefixOf (c :: t) then some 0 else (find? pat t).map (· + 1)

def occurrences (pat : Text) : Text → List Nat
  | [] => if pat.isEmpty then [0] else []
  | c :: t =>
      let rest := (occurrences pat t).map (· + 1)
      if pat.isPrefixOf (c :: t) then 0 :: rest else rest

theorem mem_occurrences {pat t : Text} {n : Nat} :
    n ∈ occurrences pat t ↔ n ≤ t.length ∧ pat <+: t.drop n := by
  induction t generalizing n with
  | nil => cases pat <;> simp [occurrences]
  | cons c t ih =>
      have hp : pat.isPrefixOf (c :: t) = true ↔ pat <+: c :: t := List.isPrefixOf_iff_prefix
      cases n with
      | zero => by_cases h : pat.isPrefixOf (c :: t) <;> simp_all [occurrences]
      | succ n => by_cases h : pat.isPrefixOf (c :: t) <;> simp_all [occurrences]

theorem find?_eq_head?_occurrences (pat t : Text) : find? pat t = (occurrences pat t).head? := by
  induction t with
  | nil => cases pat <;> simp [find?, occurrences]
  | cons c t ih =>
      by_cases h : pat.isPrefixOf (c :: t)
      · simp [find?, occurrences, h]
      · simp [find?, occurrences, h, ih, List.head?_map]

end CrossAssembler.Text
