import CrossAssembler.Proofs.Alike
import CrossAssembler.Proofs.Assembly.Bounds
import CrossAssembler.Proofs.Image.Addressing
import CrossAssembler.Proofs.Image.Rendering

namespace CrossAssembler

open Outcome Section

variable {bus : Bus} {labels : Labels} {raw : Text} {a : Assembly}

namespace Image

variable {order : List Section}

theorem total_pad (order : List Section) :
    total true order = max (lastWindowEnd order) (total false order) := by
  cases hlast : order.getLast? with
  | none => simp [total, lastWindowEnd, hlast]
  | some last =>
      cases hwindow : last.kind.window? <;>
        simp [total, lastWindowEnd, lastStop, hlast, hwindow]

theorem lastWindowEnd_le (order : List Section) : lastWindowEnd order ≤ interruptEnd := by
  cases hlast : order.getLast? with
  | none => simp [lastWindowEnd, hlast]
  | some last =>
      cases hkind : last.kind <;>
        simp [lastWindowEnd, hlast, hkind, SectionKind.window?, mainEnd, interruptEnd]

theorem valueAt_of_total_le {addr : Nat} (h : total false order ≤ addr) :
    valueAt bus labels order addr = .ok 0 := by
  rcases List.eq_nil_or_concat' order with rfl | ⟨init, last, rfl⟩
  · rfl
  · have hstop : last.stop ≤ addr := by simpa [total, lastStop] using h
    rw [Section.stop] at hstop
    have hbase : last.base ≤ addr := by omega
    have howner : owner? (init ++ [last]) addr = some last := by simp [owner?, hbase]
    rw [valueAt, howner]
    exact Section.cell_of_size_le (by omega)

theorem mapM_addresses_pad (bus : Bus) (labels : Labels)
    (hsort : order.Pairwise (·.base ≤ ·.base)) :
    ∃ n, (addresses true order).mapM (valueAt bus labels order) =
      ((addresses false order).mapM (valueAt bus labels order)).map (· ++ List.replicate n 0) := by
  have hstart := start_le_total false hsort
  have htotal := total_pad order
  have hsplit : addresses true order = addresses false order ++
      List.range' (total false order) (total true order - total false order) := by
    have := List.range'_append_1 (s := start order) (m := total false order - start order)
      (n := total true order - total false order)
    rw [show start order + (total false order - start order) = total false order by omega] at this
    rw [addresses, addresses, this]
    congr 1
    omega
  have hzeros : (List.range' (total false order) (total true order - total false order)).mapM
      (valueAt bus labels order) =
        .ok (List.replicate (total true order - total false order) 0) := by
    rw [mapM_eq_ok_replicate (b := 0), List.length_range']
    intro addr haddr
    exact valueAt_of_total_le (List.mem_range'_1.mp haddr).1
  refine ⟨total true order - total false order, ?_⟩
  rw [hsplit, List.mapM_append, hzeros]
  rfl

structure ZeroExtends (image image' : Image) : Prop where
  bus : image.bus = image'.bus
  words : ∃ n, image'.words = image.words ++ List.replicate n 0

theorem ZeroExtends.render_bin {image image' : Image} (h : image.ZeroExtends image') :
    image'.render .bin = image.render .bin := by
  obtain ⟨bus, words⟩ := image
  obtain ⟨_, _⟩ := image'
  obtain ⟨rfl, n, rfl⟩ := h
  exact render_bin_append_zeros _ _ n

theorem link_pad (bus : Bus) (labels : Labels) (sections : List Section) :
    Alike Eq ZeroExtends (link bus labels false sections).result
      (link bus labels true sections).result := by
  have htotal := total_pad (byBase sections)
  have hwindow : lastWindowEnd (byBase sections) ≤ maxWords :=
    Nat.le_trans (lastWindowEnd_le _) (by decide)
  obtain ⟨n, hn⟩ := mapM_addresses_pad bus labels (pairwise_byBase sections)
  rw [result_link, result_link]
  by_cases hlarge : maxWords < total false (byBase sections)
  · -- an image that is too large ends behind every window
    have hsame : total true (byBase sections) = total false (byBase sections) := by omega
    rw [if_pos hlarge, hsame, if_pos hlarge]
    exact .error rfl
  · rw [if_neg hlarge, if_neg (by omega), hn]
    cases (addresses false (byBase sections)).mapM (valueAt bus labels (byBase sections)) with
    | error e => exact .error rfl
    | ok words => exact .ok ⟨rfl, n, rfl⟩

end Image

structure Assembly.ZeroExtends (a a' : Assembly) : Prop where
  sections : a.sections = a'.sections
  labels : a.labels = a'.labels
  image : a.image.ZeroExtends a'.image

theorem Program.build_pad (bus : Bus) (labels : Labels) (p : Program) :
    Alike Eq Assembly.ZeroExtends (p.build bus false labels).result
      (p.build bus true labels).result := by
  simp only [build, Traced.result_bind]
  refine (Alike.refl _).bind ?_
  rintro ⟨labels, sections⟩ _ rfl
  refine (Alike.refl _).bind fun _ _ _ => (Alike.refl _).bind fun _ _ _ => ?_
  exact (Image.link_pad bus labels sections).bind fun _ _ himage => .ok ⟨rfl, rfl, himage⟩

theorem assemble_zeroExtends (bus : Bus) (raw : Text) :
    Alike Eq Assembly.ZeroExtends (assemble bus false raw).result (assemble bus true raw).result := by
  simp only [assemble, Traced.result_bind]
  refine (Alike.refl _).bind ?_
  rintro ⟨head, p⟩ _ rfl
  refine (Alike.refl _).bind fun _ _ _ => (Alike.refl _).bind ?_
  rintro labels _ rfl
  exact (Alike.refl _).bind fun _ _ _ => p.build_pad bus labels

theorem SectionKind.windowEnd_le {kind : SectionKind} {first windowEnd : Nat}
    (h : kind.window? = some (first, windowEnd)) : windowEnd ≤ interruptEnd := by
  cases kind with
  | main => cases h; decide
  | interrupt => cases h; exact Nat.le_refl _
  | org location => cases h

theorem SectionKind.windowEnd_le_mainEnd {kind : SectionKind} {first windowEnd : Nat}
    (h : kind.window? = some (first, windowEnd)) (hfirst : kind.first = 0) :
    windowEnd ≤ mainEnd := by
  cases kind with
  | main => cases h; exact Nat.le_refl _
  | interrupt => simp [SectionKind.first, mainEnd] at hfirst
  | org location => cases h

theorem Image.windowEnd_le_lastStop {s : Section} {first windowEnd : Nat}
    (h : s.kind.window? = some (first, windowEnd)) : windowEnd ≤ lastStop true s := by
  have hstop : lastStop true s = max windowEnd s.stop := by simp [lastStop, h]
  rw [hstop]
  exact Nat.le_max_left _ _

namespace Run

theorem windowEnd_le_length_words (run : Run bus true raw a) {s : Section} (hs : s ∈ a.sections)
    {first windowEnd : Nat} (hwindow : s.kind.window? = some (first, windowEnd)) :
    windowEnd ≤ a.image.words.length := by
  have hfixed : s.kind.isFixed = true := by rw [SectionKind.isFixed, hwindow, Option.isSome_some]
  have hbase := (run.settled (run.mem_sections_iff.mp hs)).base_eq hfixed
  have hend := SectionKind.windowEnd_le hwindow
  obtain ⟨last, hlast, hget, hle⟩ := Image.exists_last run.pairwise_base_le (List.ne_nil_of_mem hs)
  have hbefore := hle s hs
  have hsettled := run.settled (run.mem_sections_iff.mp hlast)
  rw [run.length_words, Image.total, hget, Option.map_some, Option.getD_some]
  cases hkind : last.kind with
  | main =>
      have hzero : last.base = 0 := by
        rw [hsettled.base_eq (by rw [hkind]; rfl), hkind]
        rfl
      have hmain := SectionKind.windowEnd_le_mainEnd hwindow (by omega)
      exact Nat.le_trans hmain (Image.windowEnd_le_lastStop (by rw [hkind]; rfl))
  | interrupt => exact Nat.le_trans hend (Image.windowEnd_le_lastStop (by rw [hkind]; rfl))
  | org location =>
      have hfirst := run.first_le_base hlast
      rw [hkind] at hfirst
      exact Nat.le_trans hend (Nat.le_trans hfirst (Image.base_le_lastStop last))

end Run

structure Assembly.Padded (raw : Text) (a a' : Assembly) : Prop where
  sections : a.sections = a'.sections
  labels : a.labels = a'.labels
  words : ∃ n, a'.image.words = a.image.words ++ List.replicate n 0
  mainWindow : mainEnd ≤ a'.image.words.length
  interruptWindow : ∀ head p, (Source.normalize raw).program = .ok (head, p) →
    p.interrupt.isSome → interruptEnd ≤ a'.image.words.length
  orgLast : ∀ s location, a'.sections.getLast? = some s → s.kind = .org location →
    a'.image.words.length = a.image.words.length
  bin : a'.image.render .bin = a.image.render .bin

theorem assemble_pad (bus : Bus) (raw : Text) :
    Alike Eq (Assembly.Padded raw) (assemble bus false raw).result
      (assemble bus true raw).result := by
  have h := assemble_zeroExtends bus raw
  generalize hx : (assemble bus false raw).result = x at h ⊢
  generalize hy : (assemble bus true raw).result = y at h ⊢
  cases h with
  | error he => exact .error he
  | @ok a a' ha =>
      obtain ⟨run⟩ := assemble_eq_ok_iff.mp hx
      obtain ⟨run'⟩ := assemble_eq_ok_iff.mp hy
      refine .ok ⟨ha.sections, ha.labels, ha.image.words, ?_, ?_, ?_, ha.image.render_bin⟩
      · obtain ⟨s, hs, hkind, -⟩ := run'.exists_main
        exact run'.windowEnd_le_length_words hs (by rw [hkind]; rfl)
      · intro head p hsplit hinterrupt
        have hp : run'.program = p :=
          congrArg Prod.snd (Except.ok.inj (run'.split.symm.trans hsplit))
        obtain ⟨body, hbody⟩ := Option.isSome_iff_exists.mp hinterrupt
        obtain ⟨s, hs, hkind⟩ := run'.exists_section .interrupt (by simp [run'.kinds, hp, hbody])
        exact run'.windowEnd_le_length_words hs (by rw [hkind]; rfl)
      · intro s location hlast hkind
        have hnone : Image.lastWindowEnd a'.sections = 0 := by
          simp [Image.lastWindowEnd, hlast, hkind, SectionKind.window?]
        rw [run'.length_words, Image.total_pad, hnone, run.length_words, ha.sections, Nat.zero_max]

end CrossAssembler
