import CrossAssembler.Report.Dump
import CrossAssembler.Proofs.Assembly.ImageContent
import CrossAssembler.Proofs.Assembly.Symbols
import CrossAssembler.Proofs.Section.Tiling

namespace CrossAssembler

open Outcome Report

variable {bus : Bus} {pad : Bool} {raw : Text} {a : Assembly}

theorem Run.mapM_resolve_slice (run : Run bus pad raw a) {s : Section} (hs : s ∈ a.sections)
    {offset size : Nat} (hsize : offset + size ≤ s.size) :
    ((s.words.drop offset).take size).mapM (Word.resolve bus a.labels) =
      .ok ((a.image.words.drop (s.base + offset)).take size) := by
  have hsection := mapM_eq_ok.mp (run.mapM_resolve hs)
  have hslice := List.forall₂_take size (List.forall₂_drop offset hsection)
  rw [List.drop_take, List.take_take, List.drop_drop, Nat.min_eq_left (by omega)] at hslice
  exact mapM_eq_ok.mpr hslice

theorem assemble_dump (h : (assemble bus pad raw).result = .ok a) {s : Section}
    (hs : s ∈ a.sections) {r : Row} (hr : r ∈ s.rows) :
    s.base + r.offset + r.size ≤ a.image.words.length ∧
    (rowWords a.image s r).length = r.size ∧
    ∃ ws, (r.IsLabel ∧ ws = [] ∨ r.Encodes bus a.labels ws) ∧
      ws = (s.words.drop r.offset).take r.size ∧
      ws.mapM (Word.resolve bus a.labels) = .ok (rowWords a.image s r) := by
  obtain ⟨run⟩ := assemble_eq_ok_iff.mp h
  have hlisted := run.listed (run.mem_sections_iff.mp hs)
  have hrow : r.offset + r.size ≤ s.size := by
    simpa [Section.size] using hlisted.offset_add_size_le hr
  have hstop : s.base + r.offset + r.size ≤ a.image.words.length := by
    have := run.stop_le_length_words hs
    rw [Section.stop] at this
    omega
  refine ⟨hstop, ?_, _, Row.isLabel_or_encodes (hlisted.words_eq_slice hr), rfl,
    run.mapM_resolve_slice hs hrow⟩
  rw [rowWords, List.length_take, List.length_drop]
  omega

theorem assemble_dump_sampleSource :
    ∃ a, (assemble sampleBus true sampleSource).result = .ok a ∧
      ∃ s ∈ a.sections, ∃ r ∈ s.rows, r.code = "BZS START".toList ∧
        (rowWords a.image s r).length = 3 ∧
        ∃ ws, r.Encodes sampleBus a.labels ws ∧
          ws.mapM (Word.resolve sampleBus a.labels) = .ok (rowWords a.image s r) := by
  have h : (assembleInOrder? sampleBus true sampleSource).any (fun a => ∃ s ∈ a.sections,
      ∃ r ∈ s.rows, r.code = "BZS START".toList ∧ r.size = 3) = true := by decide +kernel
  obtain ⟨a, ha, hrow⟩ := (Option.any_eq_true _ _).mp h
  obtain ⟨s, hs, r, hr, hcode, hsize⟩ := of_decide_eq_true hrow
  have ha := assemble_of_inOrder? ha
  obtain ⟨-, hlength, ws, hws, -, hwords⟩ := assemble_dump ha hs hr
  rw [hsize] at hlength
  refine ⟨a, ha, s, hs, r, hr, hcode, hlength, ws, hws.resolve_left ?_, hwords⟩
  rintro ⟨-, rfl⟩
  rw [← pure_eq_ok.mp hwords] at hlength
  simp at hlength

end CrossAssembler
