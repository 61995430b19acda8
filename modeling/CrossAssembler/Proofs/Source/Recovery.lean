import CrossAssembler.Proofs.Source.Stretch

namespace CrossAssembler

open Outcome Text

namespace Source

variable {src : Source}

theorem exists_headAndCode {head : List SourceLine} {blocks : List Block}
    (hlines : List.Forall₂ Item.Stands (programItems head blocks) src.lines) :
    ∃ span, ∃ code : Stretch src, src.headAndCode = .ok (span, code.span) ∧
      src.linesIn span = head.map (·.canonical) ∧
      List.Forall₂ Item.Stands (blocks.flatMap Block.items) code.rest := by
  have hitems : programItems head blocks =
      (.opening .head :: (head.map .code ++ [.closing .head])) ++
        .opening .code :: (blocks.flatMap Block.items ++ [.closing .code]) := by
    simp [programItems]
  rw [hitems] at hlines
  obtain ⟨front, back, hsplit, hfront, hback⟩ := Sequence.exists_append_of_forall₂_append hlines
  cases hback with
  | @cons _ first _ _ hfirst hback =>
      obtain ⟨body, ends, rfl, hbody, hends⟩ := Sequence.exists_append_of_forall₂_append hback
      cases hends with
      | @cons _ last _ _ hlast hnil =>
          cases hnil
          have hahead : Clear Directive.code.opening (textOf front) :=
            Item.clear_frame hfront Directive.code.opening_mem_marks (by decide) (by decide)
          have hinside : Clear Directive.code.closing (textOf body) := by
            refine (Block.clear_blocks hbody ?_).2
            rintro (_ | _ | _) - <;> simp [Block.directive]
          have hwhole : (Stretch.whole src).rest = [] ++ (front ++ first :: (body ++ [last])) :=
            hsplit
          obtain ⟨span, hhead, hcanonical⟩ := (Stretch.whole src).exists_body hwhole hfront .nil
          obtain ⟨code, rfl, hcode, -⟩ :=
            (Stretch.whole src).exists_block hsplit hfirst hlast hahead hinside
          refine ⟨span, code, ?_, hcanonical, hbody⟩
          rw [Stretch.span_whole] at hhead hcode
          simp [headAndCode, block, hhead, hcode]

theorem exists_codeBlocks (code : Stretch src) {blocks : List Block} {p : Program}
    (hcode : List.Forall₂ Item.Stands (blocks.flatMap Block.items) code.rest)
    (hmain : blocks.filterMap (·.bodyOf? .main) = [p.main])
    (hinterrupt : blocks.filterMap (·.bodyOf? .interrupt) = p.interrupt.toList)
    (horgs : blocks.filterMap Block.org? = p.orgs) :
    ∃ found, src.codeBlocks code.span = .ok found ∧ found.map src.linesIn = p.canonical := by
  obtain ⟨mainSpan, hmain, hmainLines⟩ := code.exists_bodyOf (by decide) hcode hmain
  obtain ⟨interruptSpan, hinterrupt, hinterruptLines⟩ :=
    code.exists_bodyOf? (by decide) hcode hinterrupt
  obtain ⟨orgs, hfound, hcanonical⟩ := code.exists_mapM_orgBlock hcode
  refine ⟨⟨mainSpan, interruptSpan, orgs⟩, ?_, ?_⟩
  · simp [codeBlocks, block, hmain, hinterrupt, hfound]
  · rw [CodeBlocks.map, hmainLines, hinterruptLines, hcanonical, horgs]
    rfl

end Source

theorem split_written {head : List SourceLine} {blocks : List Block} {p : Program} {ls : List Text}
    (hwritten : Written 1 (programItems head blocks) ls)
    (hmain : blocks.filterMap (·.bodyOf? .main) = [p.main])
    (hinterrupt : blocks.filterMap (·.bodyOf? .interrupt) = p.interrupt.toList)
    (horgs : blocks.filterMap Block.org? = p.orgs) :
    ∃ headSpan codeSpan found,
      (Source.normalize (unlines ls)).headAndCode = .ok (headSpan, codeSpan) ∧
      (Source.normalize (unlines ls)).codeBlocks codeSpan = .ok found ∧
      (Source.normalize (unlines ls)).linesIn headSpan = head.map (·.canonical) ∧
      found.map (Source.normalize (unlines ls)).linesIn = p.canonical := by
  obtain ⟨headSpan, code, hsplit, hhead, hcode⟩ :=
    Source.exists_headAndCode hwritten.forall₂_normalize
  obtain ⟨found, hfound, hcanonical⟩ :=
    Source.exists_codeBlocks code hcode hmain hinterrupt horgs
  exact ⟨headSpan, code.span, found, hsplit, hfound, hhead, hcanonical⟩

def sampleHead : List SourceLine :=
  [⟨3, "step = %3".toList⟩]

def sampleProgram : Program where
  main := [⟨11, "  Start: ".toList⟩]
  interrupt := none
  orgs := [⟨"$40f".toList, 6, [⟨8, "jsr Start".toList⟩]⟩]

def sampleBlocks : List Block :=
  sampleProgram.orgs.map .org ++ [.main sampleProgram.main]

def sampleListing : List Text :=
  ["// sample", "  .Head", "step = %3", ".endhead", ".CODE ", "\t.Org  $40f", "", "  jsr Start",
    ".endorg", ".main", "  Start: ", ".EndMain", ".endcode"].map String.toList

theorem written_sampleListing : Written 1 (programItems sampleHead sampleBlocks) sampleListing := by
  have halone : ∀ {mark : Text} (front word back : Text), Blank front ∧ Blank back →
      upper word = mark → Alone mark (front ++ word ++ back) := by
    intro mark front word back hblank hword
    exact ⟨front, word, back, rfl, hblank.1, hblank.2, hword⟩
  have hplain : ∀ t ∈ ["step = %3", "jsr Start", "  Start: "].map String.toList, Plain t := by
    intro t ht
    have hchars : ¬Blank t ∧ '\n' ∉ t ∧ '/' ∉ t ∧ '.' ∉ upper t := by
      revert t
      decide
    obtain ⟨hblank, hline, hslash, hdot⟩ := hchars
    exact ⟨hblank, hline, not_remarked_of_not_mem hslash, hdot⟩
  have hlocated : Located "$40f".toList := by
    refine ⟨.hex, ['4', '0', 'f'], rfl, by decide, ?_⟩
    intro c hc
    simp only [List.mem_cons, List.not_mem_nil, or_false] at hc
    rcases hc with rfl | rfl | rfl <;> decide
  refine .filler (by decide) ⟨[], _, rfl, by decide, .inr ⟨" sample".toList, rfl⟩⟩ ?_
  refine .item (by decide) (halone "  ".toList ".Head".toList [] (by decide) (by decide)) ?_
  refine .item (by decide) ⟨rfl, hplain _ (by decide), [], by decide, rfl⟩ ?_
  refine .item (by decide) (halone [] ".endhead".toList [] (by decide) (by decide)) ?_
  refine .item (by decide) (halone [] ".CODE".toList " ".toList (by decide) (by decide)) ?_
  refine .item (by decide)
    ⟨rfl, hlocated, "\t".toList, ".Org".toList, "  ".toList, [], by decide⟩ ?_
  refine .filler (by decide) ⟨[], [], rfl, by decide, .inl rfl⟩ ?_
  refine .item (by decide) ⟨rfl, hplain _ (by decide), "  ".toList, by decide, rfl⟩ ?_
  refine .item (by decide) (halone [] ".endorg".toList [] (by decide) (by decide)) ?_
  refine .item (by decide) (halone [] ".main".toList [] (by decide) (by decide)) ?_
  refine .item (by decide) ⟨rfl, hplain _ (by decide), [], by decide, rfl⟩ ?_
  refine .item (by decide) (halone [] ".EndMain".toList [] (by decide) (by decide)) ?_
  exact .item (by decide) (halone [] ".endcode".toList [] (by decide) (by decide)) (.nil _)

theorem split_written_sampleListing :
    ∃ headSpan codeSpan found,
      (Source.normalize (unlines sampleListing)).headAndCode = .ok (headSpan, codeSpan) ∧
      (Source.normalize (unlines sampleListing)).codeBlocks codeSpan = .ok found ∧
      (Source.normalize (unlines sampleListing)).linesIn headSpan = [⟨3, "STEP = %3".toList⟩] ∧
      found.map (Source.normalize (unlines sampleListing)).linesIn =
        { main := [⟨11, "START:".toList⟩]
          interrupt := none
          orgs := [⟨"$40F".toList, 6, [⟨8, "JSR START".toList⟩]⟩] } := by
  have hhead : sampleHead.map (·.canonical) = [⟨3, "STEP = %3".toList⟩] := by decide
  have hprogram : sampleProgram.canonical =
      { main := [⟨11, "START:".toList⟩]
        interrupt := none
        orgs := [⟨"$40F".toList, 6, [⟨8, "JSR START".toList⟩]⟩] } := by decide
  rw [← hhead, ← hprogram]
  exact split_written written_sampleListing rfl rfl rfl

end CrossAssembler
