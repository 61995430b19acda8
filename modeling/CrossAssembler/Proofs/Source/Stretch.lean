import CrossAssembler.Proofs.Outcome
import CrossAssembler.Proofs.Source.Blocks

namespace CrossAssembler

open Outcome Text

namespace Source

variable {src : Source}

structure Stretch (src : Source) where
  outer : Text
  front : Text
  before : List SourceLine
  rest : List SourceLine
  after : List SourceLine
  lines_eq : src.lines = before ++ (rest ++ after)
  text_eq : textOf before = outer ++ front
  dotless : '.' ∉ front

namespace Stretch

def span (s : Stretch src) : Span :=
  ⟨s.outer.length, (textOf s.before).length + (textOf s.rest).length⟩

def whole (src : Source) : Stretch src where
  outer := []
  front := []
  before := []
  rest := src.lines
  after := []
  lines_eq := by simp
  text_eq := rfl
  dotless := by simp

theorem span_whole : (whole src).span = src.all := by
  simp [span, whole, all, text, textOf]

theorem slice_span (s : Stretch src) : src.slice s.span = s.front ++ textOf s.rest := by
  have htext : src.text = s.outer ++ (s.front ++ textOf s.rest) ++ textOf s.after := by
    change textOf src.lines = _
    rw [s.lines_eq, textOf_append, textOf_append, s.text_eq]
    simp only [List.append_assoc]
  have hstop : (textOf s.before).length + (textOf s.rest).length =
      s.outer.length + (s.front ++ textOf s.rest).length := by
    rw [s.text_eq, List.length_append, List.length_append, Nat.add_assoc]
  rw [span, hstop, slice_append htext rfl (Nat.le_refl _), Nat.sub_self, List.take_zero,
    List.append_nil]

theorem clear_front (s : Stretch src) {mark : Text} (hmark : mark ∈ Directive.marks) :
    Clear mark s.front :=
  Directive.clear_of_not_mem hmark s.dotless

theorem block?_eq_none (s : Stretch src) {d : Directive}
    (h : Clear d.opening (textOf s.rest)) : src.block? s.span d = .ok none := by
  have hnone : find? d.opening (src.slice s.span) = none := by
    have hfind := ((s.clear_front d.opening_mem_marks).append h).find?_append []
    have hnil : find? d.opening [] = none := by cases d <;> rfl
    rwa [List.append_nil, hnil, ← s.slice_span] at hfind
  simp only [block?, hnone]

theorem lines_eq_of_rest (s : Stretch src) {ahead body behind : List SourceLine}
    {first last : SourceLine} (hrest : s.rest = ahead ++ first :: (body ++ last :: behind)) :
    src.lines = (s.before ++ ahead) ++ first :: (body ++ last :: (behind ++ s.after)) := by
  rw [s.lines_eq, hrest]
  simp only [List.append_assoc, List.cons_append]

theorem le_stop_of_rest (s : Stretch src) {ahead body behind : List SourceLine}
    {first last : SourceLine} (hrest : s.rest = ahead ++ first :: (body ++ last :: behind))
    {mark : Text} (hlast : Marked mark last.text) :
    (textOf (s.before ++ ahead)).length + (first.text.length + 1 + (textOf body).length) +
      mark.length ≤ s.span.stop := by
  obtain ⟨back, -, -, hlast⟩ := hlast
  simp only [span, hrest, hlast, textOf_append, textOf_cons, List.length_append, List.length_cons]
  omega

theorem exists_block (s : Stretch src) {d : Directive} {ahead body behind : List SourceLine}
    {first last : SourceLine} (hrest : s.rest = ahead ++ first :: (body ++ last :: behind))
    (hfirst : Marked d.opening first.text) (hlast : Marked d.closing last.text)
    (hahead : Clear d.opening (textOf ahead)) (hbody : Clear d.closing (textOf body)) :
    ∃ inner : Stretch src, inner.rest = body ∧ src.block? s.span d = .ok (some inner.span) ∧
      ((∀ l ∈ body, trim l.text ≠ []) →
        src.linesIn inner.span = body.map fun l => ⟨l.number, trim l.text⟩) := by
  have hsrc := s.lines_eq_of_rest hrest
  have hbefore : textOf (s.before ++ ahead) = s.outer ++ (s.front ++ textOf ahead) := by
    rw [textOf_append, s.text_eq, List.append_assoc]
  have hblock := block?_of_lines hsrc hfirst hlast hbefore
    ((s.clear_front d.opening_mem_marks).append hahead) hbody (s.le_stop_of_rest hrest hlast)
  obtain ⟨back, hback, -, hfirst⟩ := hfirst
  have hspan : Span.mk ((textOf (s.before ++ ahead)).length + d.opening.length)
      ((textOf (s.before ++ ahead)).length + (first.text.length + 1 + (textOf body).length)) =
      ⟨(textOf (s.before ++ ahead) ++ d.opening).length,
        (textOf (s.before ++ ahead ++ [first])).length + (textOf body).length⟩ := by
    simp only [textOf_append, textOf_cons, textOf_nil, List.length_append, List.length_cons,
      List.length_nil, Span.mk.injEq, true_and]
    omega
  refine ⟨
    { outer := textOf (s.before ++ ahead) ++ d.opening
      front := back ++ ['\n']
      before := s.before ++ ahead ++ [first]
      rest := body
      after := last :: (behind ++ s.after)
      lines_eq := by rw [hsrc, List.append_assoc _ [first], List.singleton_append]
      text_eq := by simp [hfirst]
      dotless := hback.not_mem_dot }, rfl, ?_, fun htrim => ?_⟩
  · rw [hspan] at hblock
    exact hblock
  · rw [span, ← hspan]
    refine linesIn_body hsrc ?_ ?_ htrim
    · rw [hfirst]
      exact (List.prefix_append _ back).length_le
    · rwa [hfirst, List.drop_left]

theorem exists_body (s : Stretch src) {d : Directive} {ahead ls behind body : List SourceLine}
    (hrest : s.rest = ahead ++ (ls ++ behind))
    (hls : List.Forall₂ Item.Stands (.opening d :: (body.map .code ++ [.closing d])) ls)
    (hahead : Clear d.opening (textOf ahead)) :
    ∃ span, src.block? s.span d = .ok (some span) ∧
      src.linesIn span = body.map (·.canonical) := by
  obtain ⟨first, inner, last, rfl, hfirst, hinner, hlast⟩ := Item.exists_frame hls
  have hrest : s.rest = ahead ++ first :: (inner ++ last :: behind) := by
    rw [hrest]
    simp only [List.cons_append, List.append_assoc, List.nil_append]
  obtain ⟨part, -, hblock, hlines⟩ :=
    s.exists_block hrest hfirst hlast hahead (Item.clear_code hinner d.closing_mem_marks)
  obtain ⟨htrim, hcanonical⟩ := Item.canonical_of_code hinner
  exact ⟨part.span, hblock, (hlines htrim).trans hcanonical⟩

theorem exists_bodyOf (s : Stretch src) {blocks : List Block} {d : Directive} (hd : d ≠ .org)
    {body : List SourceLine} {bodies : List (List SourceLine)}
    (hrest : List.Forall₂ Item.Stands (blocks.flatMap Block.items) s.rest)
    (hblocks : blocks.filterMap (·.bodyOf? d) = body :: bodies) :
    ∃ span, src.block? s.span d = .ok (some span) ∧
      src.linesIn span = body.map (·.canonical) := by
  obtain ⟨before, b, after, rfl, hbefore, hb, -⟩ := List.filterMap_eq_cons_iff.mp hblocks
  obtain ⟨rfl, rfl⟩ := Block.bodyOf?_eq_some_iff.mp hb
  rw [List.flatMap_append, List.flatMap_cons] at hrest
  obtain ⟨ahead, more, hsplit, hahead, hmore⟩ := Sequence.exists_append_of_forall₂_append hrest
  obtain ⟨ls, behind, rfl, hls, -⟩ := Sequence.exists_append_of_forall₂_append hmore
  rw [Block.items, Block.opener_eq hd] at hls
  refine s.exists_body hsplit hls (Block.clear_blocks hahead ?_).1
  intro b' hb'
  exact Block.bodyOf?_eq_none_iff.mp (hbefore b' hb')

theorem exists_bodyOf? (s : Stretch src) {blocks : List Block} {d : Directive} (hd : d ≠ .org)
    {body : Option (List SourceLine)}
    (hrest : List.Forall₂ Item.Stands (blocks.flatMap Block.items) s.rest)
    (hblocks : blocks.filterMap (·.bodyOf? d) = body.toList) :
    ∃ span, src.block? s.span d = .ok span ∧
      span.map src.linesIn = body.map (·.map (·.canonical)) := by
  cases body with
  | none =>
      have hnone := List.filterMap_eq_nil_iff.mp hblocks
      refine ⟨none, s.block?_eq_none (Block.clear_blocks hrest ?_).1, rfl⟩
      intro b hb
      exact Block.bodyOf?_eq_none_iff.mp (hnone b hb)
  | some body =>
      obtain ⟨span, hblock, hlines⟩ := s.exists_bodyOf hd hrest hblocks
      exact ⟨some span, hblock, congrArg some hlines⟩

theorem occurrences_org {ls : List SourceLine} {b : OrgBlock (List SourceLine)}
    (h : List.Forall₂ Item.Stands (Block.org b).items ls) (more : Text) :
    occurrences Directive.org.opening (textOf ls ++ more) =
      0 :: (occurrences Directive.org.opening more).map (· + (textOf ls).length) := by
  obtain ⟨first, inner, last, rfl, hfirst, hinner, hlast⟩ := Item.exists_frame h
  obtain ⟨hmark, t, htext, hdot⟩ := hfirst.exists_dotless rfl
  have hends : Clear Directive.org.opening (last.text ++ ['\n']) :=
    hlast.clear hmark fun heq => Directive.opening_ne_closing (Option.some.inj heq).symm
  have hclear : Clear Directive.org.opening (t ++ (textOf inner ++ (last.text ++ ['\n']))) :=
    (Directive.clear_of_not_mem hmark hdot).append ((Item.clear_code hinner hmark).append hends)
  have hls : textOf (first :: (inner ++ [last])) =
      Directive.org.opening ++ (t ++ (textOf inner ++ (last.text ++ ['\n']))) := by
    rw [← List.append_assoc, ← htext]
    simp
  obtain ⟨cs, hcs, hdot⟩ := Directive.exists_dot hmark
  rw [hcs] at hclear
  rw [hls, hcs]
  exact occurrences_self_append hdot hclear more

theorem exists_org (s : Stretch src) {ahead ls behind : List SourceLine}
    {b : OrgBlock (List SourceLine)} (hrest : s.rest = ahead ++ (ls ++ behind))
    (h : List.Forall₂ Item.Stands (Block.org b).items ls) :
    ∃ org, (∀ pos, s.span.start + pos = (textOf (s.before ++ ahead)).length →
      src.orgBlock s.span pos = .ok org) ∧ org.map src.linesIn = b.canonical := by
  obtain ⟨first, inner, last, rfl, hfirst, hinner, hlast⟩ := Item.exists_frame h
  have hrest : s.rest = ahead ++ first :: (inner ++ last :: behind) := by
    rw [hrest]
    simp only [List.cons_append, List.append_assoc, List.nil_append]
  have hsrc := s.lines_eq_of_rest hrest
  obtain ⟨start, hstart, hblank, horg⟩ := orgBlock_of_lines hsrc hfirst hlast
    (Item.clear_code hinner Directive.org.closing_mem_marks) (s.le_stop_of_rest hrest hlast)
  obtain ⟨htrim, hcanonical⟩ := Item.canonical_of_code hinner
  refine ⟨_, horg, ?_⟩
  rw [OrgBlock.map, linesIn_body hsrc hstart hblank htrim, hcanonical]
  rfl

theorem exists_orgs (s : Stretch src) {blocks : List Block} {ahead ls : List SourceLine}
    (hrest : s.rest = ahead ++ ls)
    (hls : List.Forall₂ Item.Stands (blocks.flatMap Block.items) ls) :
    ∃ orgs, List.Forall₂
        (fun k org => ∀ pos, s.span.start + pos = (textOf (s.before ++ ahead)).length + k →
          src.orgBlock s.span pos = .ok org)
        (occurrences Directive.org.opening (textOf ls)) orgs ∧
      orgs.map (·.map src.linesIn) = (blocks.filterMap Block.org?).map (·.canonical) := by
  induction blocks generalizing ahead ls with
  | nil =>
      cases hls
      exact ⟨[], .nil, rfl⟩
  | cons b blocks ih =>
      rw [List.flatMap_cons] at hls
      obtain ⟨front, back, rfl, hfront, hback⟩ := Sequence.exists_append_of_forall₂_append hls
      have hrest' : s.rest = (ahead ++ front) ++ back := by rw [hrest, List.append_assoc]
      obtain ⟨orgs, hfound, hcanonical⟩ := ih hrest' hback
      have hlater : List.Forall₂
          (fun k org => ∀ pos, s.span.start + pos = (textOf (s.before ++ ahead)).length + k →
            src.orgBlock s.span pos = .ok org)
          ((occurrences Directive.org.opening (textOf back)).map (· + (textOf front).length))
          orgs := by
        rw [List.forall₂_map_left_iff]
        refine hfound.imp fun k org horg pos hpos => horg pos ?_
        rw [hpos, ← List.append_assoc, textOf_append _ front, List.length_append]
        omega
      rw [textOf_append front back]
      cases horg : b.org? with
      | none =>
          obtain ⟨hclear, -⟩ := Block.clear_items hfront (Block.org?_eq_none_iff.mp horg)
          refine ⟨orgs, ?_, ?_⟩
          · rw [hclear.occurrences_append]
            exact hlater
          · rw [List.filterMap_cons_none horg]
            exact hcanonical
      | some block =>
          obtain rfl := Block.org?_eq_some_iff.mp horg
          obtain ⟨org, hfirst, horg'⟩ := s.exists_org hrest hfront
          refine ⟨org :: orgs, ?_, ?_⟩
          · rw [occurrences_org hfront]
            exact .cons hfirst hlater
          · rw [List.filterMap_cons_some horg, List.map_cons, List.map_cons, horg', hcanonical]

theorem exists_mapM_orgBlock (s : Stretch src) {blocks : List Block}
    (hrest : List.Forall₂ Item.Stands (blocks.flatMap Block.items) s.rest) :
    ∃ orgs, (occurrences Directive.org.opening (src.slice s.span)).mapM (src.orgBlock s.span) =
        .ok orgs ∧
      orgs.map (·.map src.linesIn) = (blocks.filterMap Block.org?).map (·.canonical) := by
  have hall : s.rest = [] ++ s.rest := rfl
  obtain ⟨orgs, hfound, hcanonical⟩ := s.exists_orgs hall hrest
  refine ⟨orgs, ?_, hcanonical⟩
  rw [s.slice_span, (s.clear_front Directive.org.opening_mem_marks).occurrences_append, mapM_eq_ok,
    List.forall₂_map_left_iff]
  refine hfound.imp fun k org horg => horg _ ?_
  have hstart : s.span.start = s.outer.length := rfl
  rw [List.append_nil, s.text_eq, List.length_append, hstart]
  omega

end Stretch

end Source

end CrossAssembler
