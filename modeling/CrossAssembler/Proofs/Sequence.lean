import Mathlib.Data.List.Forall2
import Mathlib.Data.List.Pairwise

namespace CrossAssembler.Sequence

variable {α β γ : Type}

theorem map_eq_of_forall₂ {f : α → γ} {g : β → γ} {xs : List α} {ys : List β}
    (h : List.Forall₂ (fun x y => g y = f x) xs ys) : ys.map g = xs.map f := by
  induction h with
  | nil => rfl
  | cons head _ ih => rw [List.map_cons, List.map_cons, head, ih]

theorem exists_of_forall₂_of_mem {R : α → β → Prop} {xs : List α} {ys : List β}
    (h : List.Forall₂ R xs ys) {y : β} (hy : y ∈ ys) : ∃ x ∈ xs, R x y := by
  induction h with
  | nil => simp at hy
  | @cons x _ _ _ head _ ih =>
      rcases List.mem_cons.mp hy with rfl | hy
      · exact ⟨x, List.mem_cons_self, head⟩
      · obtain ⟨x', hx', hR⟩ := ih hy
        exact ⟨x', List.mem_cons_of_mem x hx', hR⟩

theorem exists_append_of_forall₂_append {R : α → β → Prop} {xs xs' : List α} {ys : List β}
    (h : List.Forall₂ R (xs ++ xs') ys) :
    ∃ zs zs', ys = zs ++ zs' ∧ List.Forall₂ R xs zs ∧ List.Forall₂ R xs' zs' := by
  induction xs generalizing ys with
  | nil => exact ⟨[], ys, rfl, .nil, h⟩
  | cons x xs ih =>
      cases h with
      | cons head tail =>
          obtain ⟨zs, zs', rfl, hzs, hzs'⟩ := ih tail
          exact ⟨_ :: zs, zs', rfl, .cons head hzs, hzs'⟩

theorem pairwise_of_forall₂ {R : α → β → Prop} {S : α → α → Prop} {xs : List α} {ys : List β}
    (h : List.Forall₂ R xs ys) (hxs : xs.Pairwise S) :
    ys.Pairwise fun y y' => ∃ x x', S x x' ∧ R x y ∧ R x' y' := by
  induction h with
  | nil => exact .nil
  | cons head tail ih =>
      obtain ⟨hfirst, hrest⟩ := List.pairwise_cons.mp hxs
      refine .cons (fun y hy => ?_) (ih hrest)
      obtain ⟨x, hx, hR⟩ := exists_of_forall₂_of_mem tail hy
      exact ⟨_, x, hfirst x hx, head, hR⟩

theorem index_unique {P : α → Prop} {l : List α} (h : l.Pairwise fun x y => P x → ¬P y)
    {i j : Nat} {x y : α} (hi : l[i]? = some x) (hx : P x) (hj : l[j]? = some y) (hy : P y) :
    j = i := by
  obtain ⟨hilt, rfl⟩ := List.getElem?_eq_some_iff.mp hi
  obtain ⟨hjlt, rfl⟩ := List.getElem?_eq_some_iff.mp hj
  rw [List.pairwise_iff_getElem] at h
  rcases Nat.lt_trichotomy i j with hlt | heq | hlt
  · exact absurd hy (h i j hilt hjlt hlt hx)
  · exact heq.symm
  · exact absurd hx (h j i hjlt hilt hlt hy)

theorem find?_eq_some_of_pairwise {p : α → Bool} {l : List α}
    (h : l.Pairwise fun x y => p x = true → ¬p y = true) {x : α} (hx : x ∈ l) (hp : p x = true) :
    l.find? p = some x := by
  obtain ⟨before, after, rfl⟩ := List.append_of_mem hx
  rw [List.find?_eq_some_iff_append]
  refine ⟨hp, before, after, rfl, fun y hy => ?_⟩
  have hpair := (List.pairwise_append.mp h).2.2 y hy x List.mem_cons_self
  simpa using fun hpy => hpair hpy hp

theorem pairwise_iff_of_symmetric {R : α → α → Prop} (hsymm : ∀ x y, R x y → R y x) {l : List α} :
    l.Pairwise R ↔
      ∀ (i j : Nat) (x y : α), i ≠ j → l[i]? = some x → l[j]? = some y → R x y := by
  rw [List.pairwise_iff_getElem]
  constructor
  · intro h i j x y hij hi hj
    obtain ⟨hilt, rfl⟩ := List.getElem?_eq_some_iff.mp hi
    obtain ⟨hjlt, rfl⟩ := List.getElem?_eq_some_iff.mp hj
    rcases Nat.lt_or_gt_of_ne hij with hlt | hgt
    · exact h i j hilt hjlt hlt
    · exact hsymm _ _ (h j i hjlt hilt hgt)
  · intro h i j hi hj hij
    exact h i j _ _ (Nat.ne_of_lt hij) (List.getElem?_eq_getElem hi) (List.getElem?_eq_getElem hj)

theorem eq_of_filter_key_eq {key : α → Nat} {xs ys : List α}
    (hxs : xs.Pairwise (key · ≤ key ·)) (hys : ys.Pairwise (key · ≤ key ·))
    (h : ∀ k, xs.filter (key · = k) = ys.filter (key · = k)) : xs = ys := by
  have hmem : ∀ {zs : List α} {z : α}, z ∈ zs.filter (key · = key z) ↔ z ∈ zs := by
    simp [List.mem_filter]
  induction xs generalizing ys with
  | nil =>
      rw [eq_comm, List.eq_nil_iff_forall_not_mem]
      intro y hy
      rw [← hmem, ← h, List.filter_nil] at hy
      simp at hy
  | cons x xs ih =>
      cases ys with
      | nil =>
          have hx : x ∈ x :: xs := List.mem_cons_self
          rw [← hmem, h, List.filter_nil] at hx
          simp at hx
      | cons y ys =>
          obtain ⟨hx, hxs'⟩ := List.pairwise_cons.mp hxs
          obtain ⟨hy, hys'⟩ := List.pairwise_cons.mp hys
          have hyx : y ∈ x :: xs := hmem.mp (h (key y) ▸ hmem.mpr List.mem_cons_self)
          have hxy : x ∈ y :: ys := hmem.mp (h (key x) ▸ hmem.mpr List.mem_cons_self)
          -- Both heads have the least key, so the members with that key start with them.
          have hkey : key x = key y := by
            apply Nat.le_antisymm
            · rcases List.mem_cons.mp hyx with rfl | hyx
              · exact Nat.le_refl _
              · exact hx y hyx
            · rcases List.mem_cons.mp hxy with rfl | hxy
              · exact Nat.le_refl _
              · exact hy x hxy
          obtain rfl : x = y := by
            have := h (key x)
            simp only [List.filter_cons, hkey, decide_true, if_true] at this
            exact (List.cons.inj this).1
          congr 1
          refine ih hxs' hys' fun k => ?_
          have := h k
          simp only [List.filter_cons] at this
          split at this
          · exact (List.cons.inj this).2
          · exact this

theorem eq_append_trailing (p : α → Bool) (xs : List α) :
    xs = (xs.reverse.dropWhile p).reverse ++ (xs.reverse.takeWhile p).reverse := by
  rw [← List.reverse_append, List.takeWhile_append_dropWhile, List.reverse_reverse]

theorem eq_of_flatMap_eq {f : α → List β} {k : Nat} (hk : 0 < k) (hlength : ∀ x, (f x).length = k)
    {xs ys : List α} (hinj : ∀ x ∈ xs, ∀ y ∈ ys, f x = f y → x = y)
    (h : xs.flatMap f = ys.flatMap f) : xs = ys := by
  induction xs generalizing ys with
  | nil =>
      cases ys with
      | nil => rfl
      | cons y ys =>
          have := congrArg List.length h
          simp only [List.flatMap_nil, List.flatMap_cons, List.length_nil, List.length_append,
            hlength] at this
          omega
  | cons x xs ih =>
      cases ys with
      | nil =>
          have := congrArg List.length h
          simp only [List.flatMap_nil, List.flatMap_cons, List.length_nil, List.length_append,
            hlength] at this
          omega
      | cons y ys =>
          rw [List.flatMap_cons, List.flatMap_cons] at h
          obtain ⟨hhead, htail⟩ := List.append_inj h (by rw [hlength, hlength])
          have hxs := ih (fun x hx y hy => hinj x (List.mem_cons_of_mem _ hx) y
            (List.mem_cons_of_mem _ hy)) htail
          rw [hinj x List.mem_cons_self y List.mem_cons_self hhead, hxs]

theorem getElem?_flatMap {f : α → List β} {k : Nat} (hk : 0 < k)
    (hlength : ∀ x, (f x).length = k) (xs : List α) (i : Nat) :
    (xs.flatMap f)[i]? = xs[i / k]?.bind fun x => (f x)[i % k]? := by
  induction xs generalizing i with
  | nil => simp
  | cons x xs ih =>
      rw [List.flatMap_cons]
      rcases Nat.lt_or_ge i k with hi | hi
      · rw [List.getElem?_append_left (by rwa [hlength]), Nat.div_eq_of_lt hi, Nat.mod_eq_of_lt hi]
        rfl
      · obtain ⟨j, rfl⟩ := Nat.exists_eq_add_of_le hi
        rw [List.getElem?_append_right (by rwa [hlength]), hlength, Nat.add_sub_cancel_left, ih,
          Nat.add_comm k j, Nat.add_div_right j hk, Nat.add_mod_right, List.getElem?_cons_succ]

theorem eq_of_map_eq {f : α → β} {xs ys : List α} (hinj : ∀ x ∈ xs, ∀ y ∈ ys, f x = f y → x = y)
    (h : xs.map f = ys.map f) : xs = ys := by
  rw [List.map_eq_flatMap, List.map_eq_flatMap] at h
  refine eq_of_flatMap_eq Nat.zero_lt_one (fun _ => List.length_singleton) ?_ h
  intro x hx y hy hxy
  exact hinj x hx y hy (List.singleton_inj.mp hxy)

theorem getElem?_reverse_range {n i : Nat} (h : i < n) :
    (List.range n).reverse[i]? = some (n - 1 - i) := by
  rw [List.getElem?_reverse (by rwa [List.length_range]), List.length_range,
    List.getElem?_range (by omega)]

theorem eraseDups_concat [BEq α] [LawfulBEq α] (xs : List α) (x : α) :
    (xs ++ [x]).eraseDups = if x ∈ xs then xs.eraseDups else xs.eraseDups ++ [x] := by
  rw [List.eraseDups_append]
  by_cases h : x ∈ xs
  · simp [List.removeAll, h]
  · simp [List.removeAll, h, List.eraseDups_cons]

end CrossAssembler.Sequence
