import CrossAssembler.Source.Blocks
import CrossAssembler.Proofs.Sequence
import CrossAssembler.Proofs.Source.Span
import CrossAssembler.Proofs.Source.Writing
import CrossAssembler.Proofs.Text.Search

namespace CrossAssembler

open Text

namespace Directive

theorem mark_dot : ∀ mark ∈ marks, mark.head? = some '.' ∧ '.' ∉ mark.tail := by
  decide

theorem mark_incomparable : ∀ mark ∈ marks, ∀ mark' ∈ marks, mark ≠ mark' → ¬mark <+: mark' := by
  decide

theorem exists_dot {mark : Text} (h : mark ∈ marks) : ∃ cs, mark = '.' :: cs ∧ '.' ∉ cs := by
  obtain ⟨hhead, htail⟩ := mark_dot mark h
  obtain ⟨cs, rfl⟩ := List.head?_eq_some_iff.mp hhead
  exact ⟨cs, rfl, htail⟩

theorem clear_of_not_mem {mark t : Text} (hmark : mark ∈ marks) (h : '.' ∉ t) : Clear mark t := by
  obtain ⟨cs, rfl, -⟩ := exists_dot hmark
  exact .of_not_mem h

theorem clear_mark {mark mark' : Text} (hmark : mark ∈ marks) (hmark' : mark' ∈ marks)
    (hne : mark ≠ mark') : Clear mark mark' := by
  have hleft := mark_incomparable mark hmark mark' hmark' hne
  have hright := mark_incomparable mark' hmark' mark hmark hne.symm
  obtain ⟨cs, rfl, -⟩ := exists_dot hmark
  obtain ⟨cs', rfl, hdot⟩ := exists_dot hmark'
  exact .of_incomparable hleft hright hdot

theorem opening_inj {d d' : Directive} (h : d.opening = d'.opening) : d = d' := by
  cases d <;> cases d' <;> first | rfl | exact absurd h (by decide)

theorem closing_inj {d d' : Directive} (h : d.closing = d'.closing) : d = d' := by
  cases d <;> cases d' <;> first | rfl | exact absurd h (by decide)

theorem opening_ne_closing {d d' : Directive} : d.opening ≠ d'.closing := by
  cases d <;> cases d' <;> decide

end Directive

theorem Text.Blank.not_mem_dot {t : Text} (h : Blank t) : '.' ∉ t ++ ['\n'] := by
  simp [h.not_mem (by decide : isBlank '.' = false)]

theorem Text.Located.not_mem_dot {t : Text} (h : Located t) : '.' ∉ upper t := by
  intro hmem
  obtain ⟨r, cs, rfl, -, hcs⟩ := h
  rcases List.mem_cons.mp (mem_of_mem_upper (by decide) hmem) with hmarker | hmem
  · cases r <;> simp [Radix.marker] at hmarker
  · exact (hcs '.' hmem).2.1 rfl

theorem Text.Located.not_isBlank_upper {t : Text} (h : Located t) :
    ∀ c ∈ upper t, isBlank c = false := by
  obtain ⟨r, cs, rfl, -, hcs⟩ := h
  have hmarker : isBlank r.marker = false := by cases r <;> decide
  intro c hc
  obtain ⟨d, hd, hc⟩ := List.mem_flatMap.mp hc
  apply isBlank_of_mem_upperChar _ hc
  rcases List.mem_cons.mp hd with rfl | hd
  · exact hmarker
  · exact (hcs d hd).1

namespace Item

def mark? : Item → Option Text
  | opening d => some d.opening
  | closing d => some d.closing
  | org _ _ => some Directive.org.opening
  | code _ => none

theorem Stands.exists_dotless {item : Item} {s : SourceLine} {mark : Text} (h : item.Stands s)
    (hmark : item.mark? = some mark) :
    mark ∈ Directive.marks ∧ ∃ t, s.text ++ ['\n'] = mark ++ t ∧ '.' ∉ t := by
  cases item with
  | opening d =>
      obtain ⟨back, hback, -, htext⟩ := h
      obtain rfl := Option.some.inj hmark
      exact ⟨d.opening_mem_marks, _, by rw [htext, List.append_assoc], hback.not_mem_dot⟩
  | closing d =>
      obtain ⟨back, hback, -, htext⟩ := h
      obtain rfl := Option.some.inj hmark
      exact ⟨d.closing_mem_marks, _, by rw [htext, List.append_assoc], hback.not_mem_dot⟩
  | org number location =>
      obtain ⟨-, hlocated, gap, back, hgap, hback, -, htext⟩ := h
      obtain rfl := Option.some.inj hmark
      refine ⟨Directive.org.opening_mem_marks, gap ++ (upper location ++ (back ++ ['\n'])), ?_, ?_⟩
      · rw [htext]
        simp only [List.append_assoc]
      · have hgap : '.' ∉ gap := hgap.not_mem (by decide)
        rw [List.mem_append, List.mem_append]
        rintro (hmem | hmem | hmem)
        · exact hgap hmem
        · exact hlocated.not_mem_dot hmem
        · exact hback.not_mem_dot hmem
  | code line => simp [mark?] at hmark

theorem Stands.clear {item : Item} {s : SourceLine} {mark : Text} (h : item.Stands s)
    (hmark : mark ∈ Directive.marks) (hne : item.mark? ≠ some mark) :
    Clear mark (s.text ++ ['\n']) := by
  cases hown : item.mark? with
  | some own =>
      obtain ⟨hown', t, htext, hdot⟩ := h.exists_dotless hown
      have hne : mark ≠ own := by
        rintro rfl
        exact hne hown
      rw [htext]
      exact (Directive.clear_mark hmark hown' hne).append (Directive.clear_of_not_mem hmark hdot)
  | none =>
      cases item with
      | code line =>
          obtain ⟨-, -, hdot, -⟩ := h
          exact Directive.clear_of_not_mem hmark (by simp [hdot])
      | opening d => simp [mark?] at hown
      | closing d => simp [mark?] at hown
      | org number location => simp [mark?] at hown

theorem clear_textOf {items : List Item} {ls : List SourceLine}
    (h : List.Forall₂ Stands items ls) {mark : Text}
    (hmark : mark ∈ Directive.marks) (hne : ∀ item ∈ items, item.mark? ≠ some mark) :
    Clear mark (Source.textOf ls) := by
  induction h with
  | nil => exact .nil
  | @cons item s items ls head _ ih =>
      rw [Source.textOf_cons, ← List.singleton_append, ← List.append_assoc]
      exact (head.clear hmark (hne item List.mem_cons_self)).append
        (ih fun item' hmem => hne item' (List.mem_cons_of_mem item hmem))

theorem clear_code {body ls : List SourceLine} (h : List.Forall₂ Stands (body.map code) ls)
    {mark : Text} (hmark : mark ∈ Directive.marks) : Clear mark (Source.textOf ls) := by
  apply clear_textOf h hmark
  intro item hitem
  obtain ⟨line, -, rfl⟩ := List.mem_map.mp hitem
  simp [mark?]

theorem canonical_of_code {body ls : List SourceLine}
    (h : List.Forall₂ Stands (body.map code) ls) :
    (∀ l ∈ ls, trim l.text ≠ []) ∧
      (ls.map fun l => ⟨l.number, trim l.text⟩) = body.map (·.canonical) := by
  induction body generalizing ls with
  | nil =>
      cases h
      simp
  | cons line body ih =>
      cases h with
      | cons head tail =>
          obtain ⟨hnumber, -, -, hne, htrim⟩ := head
          obtain ⟨hrest, hmap⟩ := ih tail
          refine ⟨List.forall_mem_cons.mpr ⟨hne, hrest⟩, ?_⟩
          rw [List.map_cons, List.map_cons, hmap, hnumber, htrim]
          rfl

theorem mark?_of_mem_frame {opens closes item : Item} {body : List SourceLine}
    (h : item ∈ opens :: (body.map code ++ [closes])) :
    item.mark? = none ∨ item.mark? = opens.mark? ∨ item.mark? = closes.mark? := by
  rcases List.mem_cons.mp h with rfl | h
  · exact .inr (.inl rfl)
  · rcases List.mem_append.mp h with h | h
    · obtain ⟨line, -, rfl⟩ := List.mem_map.mp h
      exact .inl rfl
    · rw [List.mem_singleton.mp h]
      exact .inr (.inr rfl)

theorem clear_frame {opens closes : Item} {body ls : List SourceLine}
    (h : List.Forall₂ Stands (opens :: (body.map code ++ [closes])) ls) {mark : Text}
    (hmark : mark ∈ Directive.marks) (hopens : opens.mark? ≠ some mark)
    (hcloses : closes.mark? ≠ some mark) : Clear mark (Source.textOf ls) := by
  apply clear_textOf h hmark
  intro item hitem
  rcases mark?_of_mem_frame hitem with heq | heq | heq
  · simp [heq]
  · rwa [heq]
  · rwa [heq]

theorem exists_frame {opens closes : Item} {body ls : List SourceLine}
    (h : List.Forall₂ Stands (opens :: (body.map code ++ [closes])) ls) :
    ∃ first inner last, ls = first :: (inner ++ [last]) ∧ opens.Stands first ∧
      List.Forall₂ Stands (body.map code) inner ∧ closes.Stands last := by
  cases h with
  | cons head tail =>
      obtain ⟨inner, ends, rfl, hinner, hends⟩ := Sequence.exists_append_of_forall₂_append tail
      cases hends with
      | cons hlast hnil =>
          cases hnil
          exact ⟨_, inner, _, rfl, head, hinner, hlast⟩

end Item

namespace Block

theorem mark?_opener (b : Block) : b.opener.mark? = some b.directive.opening := by
  cases b <;> rfl

theorem clear_items {b : Block} {ls : List SourceLine} (h : List.Forall₂ Item.Stands b.items ls)
    {d : Directive} (hd : b.directive ≠ d) :
    Clear d.opening (Source.textOf ls) ∧ Clear d.closing (Source.textOf ls) := by
  constructor
  · refine Item.clear_frame h d.opening_mem_marks ?_ ?_
    · rw [mark?_opener]
      exact fun heq => hd (Directive.opening_inj (Option.some.inj heq))
    · exact fun heq => Directive.opening_ne_closing (Option.some.inj heq).symm
  · refine Item.clear_frame h d.closing_mem_marks ?_ ?_
    · rw [mark?_opener]
      exact fun heq => Directive.opening_ne_closing (Option.some.inj heq)
    · exact fun heq => hd (Directive.closing_inj (Option.some.inj heq))

theorem clear_blocks {blocks : List Block} {ls : List SourceLine}
    (h : List.Forall₂ Item.Stands (blocks.flatMap items) ls) {d : Directive}
    (hd : ∀ b ∈ blocks, b.directive ≠ d) :
    Clear d.opening (Source.textOf ls) ∧ Clear d.closing (Source.textOf ls) := by
  induction blocks generalizing ls with
  | nil =>
      cases h
      exact ⟨.nil, .nil⟩
  | cons b blocks ih =>
      rw [List.flatMap_cons] at h
      obtain ⟨front, back, rfl, hfront, hback⟩ := Sequence.exists_append_of_forall₂_append h
      obtain ⟨hopening, hclosing⟩ := clear_items hfront (hd b List.mem_cons_self)
      obtain ⟨hopening', hclosing'⟩ := ih hback fun b' hb' => hd b' (List.mem_cons_of_mem b hb')
      rw [Source.textOf_append]
      exact ⟨hopening.append hopening', hclosing.append hclosing'⟩

end Block

namespace Source

variable {src : Source} {d : Directive}

theorem find?_mark {mark t rest : Text} (hmark : mark ∈ Directive.marks) (ht : Clear mark t) :
    find? mark (t ++ (mark ++ rest)) = some t.length := by
  obtain ⟨hne, -⟩ := Directive.mark_chars hmark
  rw [ht.find?_append, find?_self_append hne]
  simp

theorem block?_of_text {before front body after : Text} {stop : Nat}
    (htext : src.text = before ++ (front ++ (d.opening ++ (body ++ d.closing))) ++ after)
    (hfront : Clear d.opening front) (hbody : Clear d.closing body)
    (hstop : (before ++ (front ++ (d.opening ++ (body ++ d.closing)))).length ≤ stop) :
    src.block? ⟨before.length, stop⟩ d =
      .ok (some ⟨before.length + front.length + d.opening.length,
        before.length + front.length + d.opening.length + body.length⟩) := by
  have hwithin := slice_append htext rfl (by simpa using hstop)
  have htext' : src.text =
      (before ++ (front ++ d.opening)) ++ (body ++ d.closing) ++ after := by
    rw [htext]
    simp only [List.append_assoc]
  have hlength : before.length + front.length + d.opening.length =
      (before ++ (front ++ d.opening)).length := by
    simp [Nat.add_assoc]
  have hrest := slice_append htext' hlength (by simpa [Nat.add_assoc] using hstop)
  have hopening : find? d.opening (src.slice ⟨before.length, stop⟩) = some front.length := by
    rw [hwithin, List.append_assoc, List.append_assoc]
    exact find?_mark d.opening_mem_marks hfront
  have hclosing : find? d.closing (src.slice
      ⟨before.length + front.length + d.opening.length, stop⟩) = some body.length := by
    rw [hrest, List.append_assoc]
    exact find?_mark d.closing_mem_marks hbody
  simp only [block?, hopening, hclosing]

theorem block?_of_lines {before body after : List SourceLine} {first last : SourceLine}
    {outer front : Text} {stop : Nat}
    (hsrc : src.lines = before ++ first :: (body ++ last :: after))
    (hfirst : Marked d.opening first.text) (hlast : Marked d.closing last.text)
    (hbefore : textOf before = outer ++ front) (hfront : Clear d.opening front)
    (hbody : Clear d.closing (textOf body))
    (hstop : (textOf before).length + (first.text.length + 1 + (textOf body).length) +
      d.closing.length ≤ stop) :
    src.block? ⟨outer.length, stop⟩ d = .ok (some
      ⟨(textOf before).length + d.opening.length,
        (textOf before).length + (first.text.length + 1 + (textOf body).length)⟩) := by
  obtain ⟨back, hback, -, hfirst⟩ := hfirst
  obtain ⟨back', -, -, hlast⟩ := hlast
  have htext : src.text = outer ++ (front ++ (d.opening ++ ((back ++ ['\n'] ++ textOf body) ++
      d.closing))) ++ (back' ++ '\n' :: textOf after) := by
    change textOf src.lines = _
    simp [hsrc, hbefore, hfirst, hlast]
  have hclear : Clear d.closing (back ++ ['\n'] ++ textOf body) :=
    (Directive.clear_of_not_mem d.closing_mem_marks hback.not_mem_dot).append hbody
  rw [hbefore, hfirst] at hstop
  have hlength : (outer ++ (front ++ (d.opening ++ ((back ++ ['\n'] ++ textOf body) ++
      d.closing)))).length ≤ stop := by
    simp only [List.length_append, List.length_singleton] at hstop ⊢
    omega
  rw [block?_of_text htext hfront hclear hlength, hbefore, hfirst]
  simp only [List.length_append, List.length_singleton, Except.ok.injEq, Option.some.injEq,
    Span.mk.injEq, true_and]
  omega

theorem idxOf?_append_cons {front back : Text} {c : Char} (h : c ∉ front) :
    (front ++ c :: back).idxOf? c = some front.length := by
  induction front with
  | nil => simp [List.idxOf?_cons]
  | cons d front ih =>
      have hd : d ≠ c := by
        rintro rfl
        simp at h
      have hrest := ih fun hmem => h (List.mem_cons_of_mem d hmem)
      simp [List.idxOf?_cons, hd, hrest]

theorem locationStart?_of_located {gap location back : Text} (h : Located location)
    (hgap : Blank gap) (hback : Blank back) :
    locationStart? (gap ++ upper location ++ back) = some gap.length := by
  obtain ⟨r, cs, rfl, -, hcs⟩ := h
  have hplain : ∀ r : Radix, isBlank r.marker = false ∧ isCapital r.marker = false ∧
      upperChar r.marker = [r.marker] := by
    intro r
    cases r <;> decide
  have hfound : (gap ++ upper (r.marker :: cs) ++ back).idxOf? r.marker = some gap.length := by
    rw [upper_cons, (hplain r).2.2, List.append_assoc]
    exact idxOf?_append_cons (hgap.not_mem (hplain r).1)
  have hmissed : ∀ r', r' ≠ r →
      (gap ++ upper (r.marker :: cs) ++ back).idxOf? r'.marker = none := by
    intro r' hne
    rw [List.idxOf?_eq_none_iff]
    intro hmem
    rcases List.mem_append.mp hmem with hmem | hmem
    · rcases List.mem_append.mp hmem with hmem | hmem
      · exact hgap.not_mem (hplain r').1 hmem
      · rcases List.mem_cons.mp (mem_of_mem_upper (hplain r').2.1 hmem) with hmarker | hmem
        · have := Radix.ofMarker?_eq_some_iff.mpr hmarker
          rw [Radix.ofMarker?_eq_some_iff.mpr rfl] at this
          exact hne (Option.some.inj this)
        · have := (hcs _ hmem).2.2.2
          rw [Radix.ofMarker?_eq_some_iff.mpr rfl] at this
          simp at this
    · exact hback.not_mem (hplain r').1 hmem
  unfold locationStart?
  cases r with
  | hex => simp only [List.findSome?_cons, hfound]
  | bin => simp only [List.findSome?_cons, hfound, hmissed .hex (by decide)]
  | dec =>
      simp only [List.findSome?_cons, hfound, hmissed .hex (by decide), hmissed .bin (by decide)]

theorem takeWhile_location {location back : Text} (h : Located location) (hback : Blank back) :
    (upper location ++ back).takeWhile (fun c => !isBlank c) = upper location := by
  have hlocation : ∀ c ∈ upper location, (!isBlank c) = true := by
    intro c hc
    simp [h.not_isBlank_upper c hc]
  rw [List.takeWhile_append_of_pos hlocation]
  cases back with
  | nil => simp
  | cons c back => simp [hback c List.mem_cons_self]

theorem orgBlock_of_text {before gap location back body after : Text} {code : Span} {pos : Nat}
    (htext : src.text = before ++ Directive.org.opening ++ (gap ++ upper location ++ back ++
      ['\n'] ++ body ++ Directive.org.closing) ++ after)
    (hlocated : Located location) (hgap : Blank gap) (hback : Blank back)
    (hnewline : '\n' ∉ gap ++ back) (hbody : Clear Directive.org.closing body)
    (hpos : code.start + pos = before.length)
    (hstop : (before ++ Directive.org.opening ++ (gap ++ upper location ++ back ++ ['\n'] ++ body ++
      Directive.org.closing)).length ≤ code.stop) :
    src.orgBlock code pos = .ok
      { location := upper location
        line := src.lineOf before.length
        body :=
          ⟨(before ++ Directive.org.opening ++ gap ++ upper location).length,
            (before ++ Directive.org.opening ++ gap ++ upper location ++ back ++ ['\n'] ++
              body).length⟩ } := by
  have hrest : (src.slice ⟨before.length + Directive.org.opening.length, code.stop⟩).takeWhile
      (· != '\n') = gap ++ upper location ++ back := by
    have hline : ∀ c ∈ gap ++ upper location ++ back, (c != '\n') = true := by
      intro c hc
      rw [bne_iff_ne]
      rintro rfl
      have hlocation : '\n' ∉ upper location := fun hmem =>
        absurd (hlocated.not_isBlank_upper _ hmem) (by decide)
      simp_all
    rw [slice_append htext List.length_append.symm (by rwa [← List.length_append])]
    simp only [List.append_assoc]
    rw [← List.append_assoc, ← List.append_assoc, List.takeWhile_append_of_pos hline]
    simp
  have hlocation : ((gap ++ upper location ++ back).drop gap.length).takeWhile
      (fun c => !isBlank c) = upper location := by
    rw [List.append_assoc, List.drop_left]
    exact takeWhile_location hlocated hback
  have hclosing : find? Directive.org.closing (src.slice ⟨before.length +
      Directive.org.opening.length + gap.length + (upper location).length, code.stop⟩) =
      some (back ++ ['\n'] ++ body).length := by
    have htext' : src.text = (before ++ Directive.org.opening ++ gap ++ upper location) ++
        (back ++ ['\n'] ++ body ++ Directive.org.closing) ++ after := by
      rw [htext]
      simp only [List.append_assoc]
    have hclear : Clear Directive.org.closing (back ++ ['\n'] ++ body) :=
      (Directive.clear_of_not_mem Directive.org.closing_mem_marks hback.not_mem_dot).append hbody
    rw [slice_append htext', List.append_assoc]
    · exact find?_mark Directive.org.closing_mem_marks hclear
    · simp only [List.length_append]
    · simp only [List.length_append] at hstop ⊢
      omega
  simp only [orgBlock, hpos, hrest, locationStart?_of_located hlocated hgap hback, hlocation,
    hclosing]
  simp only [List.length_append, Nat.add_assoc]

theorem orgBlock_of_lines {before body after : List SourceLine} {first last : SourceLine}
    {number : Nat} {location : Text} {code : Span}
    (hsrc : src.lines = before ++ first :: (body ++ last :: after))
    (hfirst : (Item.org number location).Stands first)
    (hlast : Marked Directive.org.closing last.text)
    (hbody : Clear Directive.org.closing (textOf body))
    (hstop : (textOf before).length + (first.text.length + 1 + (textOf body).length) +
      Directive.org.closing.length ≤ code.stop) :
    ∃ start ≤ first.text.length, Blank (first.text.drop start) ∧
      ∀ pos, code.start + pos = (textOf before).length → src.orgBlock code pos = .ok
        { location := upper location
          line := number
          body := ⟨(textOf before).length + start,
            (textOf before).length + (first.text.length + 1 + (textOf body).length)⟩ } := by
  obtain ⟨rfl, hlocated, gap, back, hgap, hback, hnewline, hfirst⟩ := hfirst
  obtain ⟨back', -, -, hlast⟩ := hlast
  have htext : src.text = textOf before ++ Directive.org.opening ++ (gap ++ upper location ++
      back ++ ['\n'] ++ textOf body ++ Directive.org.closing) ++
      (back' ++ '\n' :: textOf after) := by
    change textOf src.lines = _
    simp [hsrc, hfirst, hlast]
  have hnumber : src.lineOf (textOf before).length = first.number := by
    rw [lineOf, hsrc]
    exact numberAt_append before first _ (Nat.zero_le _)
  refine ⟨(Directive.org.opening ++ gap ++ upper location).length, ?_, ?_, fun pos hpos => ?_⟩
  · rw [hfirst]
    exact (List.prefix_append _ back).length_le
  · rwa [hfirst, List.drop_left]
  · rw [orgBlock_of_text htext hlocated hgap hback hnewline hbody hpos, hnumber, hfirst]
    · simp only [List.length_append, List.length_singleton, Nat.add_assoc]
    · rw [hfirst] at hstop
      simp only [List.length_append, List.length_singleton] at hstop ⊢
      omega

end Source

end CrossAssembler
