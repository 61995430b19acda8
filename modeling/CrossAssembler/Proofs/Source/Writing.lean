import CrossAssembler.Assembly
import CrossAssembler.Proofs.Source.Normalization

namespace CrossAssembler

open Text

inductive Item where
  | opening (d : Directive)
  | closing (d : Directive)
  | org (number : Nat) (location : Text)
  | code (line : SourceLine)

inductive Block where
  | main (body : List SourceLine)
  | interrupt (body : List SourceLine)
  | org (block : OrgBlock (List SourceLine))

namespace Text

structure Plain (t : Text) : Prop where
  notBlank : ¬Blank t
  oneLine : '\n' ∉ t
  unremarked : ¬Remarked t
  undotted : '.' ∉ upper t

def Located (t : Text) : Prop :=
  ∃ (r : Radix) (cs : Text), t = r.marker :: cs ∧ cs ≠ [] ∧
    ∀ c ∈ cs, isBlank c = false ∧ c ≠ '.' ∧ c ≠ '/' ∧ Radix.ofMarker? c = none

def Alone (mark l : Text) : Prop :=
  ∃ front word back, l = front ++ word ++ back ∧ Blank front ∧ Blank back ∧ upper word = mark

end Text

namespace Item

def Holds (n : Nat) (l : Text) : Item → Prop
  | opening d => Alone d.opening l
  | closing d => Alone d.closing l
  | org number location => number = n ∧ Located location ∧
      ∃ front word gap back, l = front ++ (word ++ gap ++ location) ++ back ∧ Blank front ∧
        Blank gap ∧ Blank back ∧ upper word = Directive.org.opening
  | code line => line.number = n ∧ Plain line.text ∧ ∃ front, Blank front ∧ l = front ++ line.text

end Item

inductive Written : Nat → List Item → List Text → Prop
  | nil (n : Nat) : Written n [] []
  | filler {n : Nat} {items : List Item} {l : Text} {ls : List Text} (oneLine : '\n' ∉ l)
      (idle : Filler l) (rest : Written (n + 1) items ls) : Written n items (l :: ls)
  | item {n : Nat} {item : Item} {items : List Item} {l : Text} {ls : List Text}
      (oneLine : '\n' ∉ l) (holds : item.Holds n l) (rest : Written (n + 1) items ls) :
      Written n (item :: items) (l :: ls)

namespace Block

def directive : Block → Directive
  | main _ => .main
  | interrupt _ => .interrupt
  | org _ => .org

def opener : Block → Item
  | main _ => .opening .main
  | interrupt _ => .opening .interrupt
  | org b => .org b.line b.location

def body : Block → List SourceLine
  | main body => body
  | interrupt body => body
  | org b => b.body

def items (b : Block) : List Item :=
  b.opener :: (b.body.map .code ++ [.closing b.directive])

def bodyOf? (d : Directive) (b : Block) : Option (List SourceLine) :=
  if b.directive = d then some b.body else none

def org? : Block → Option (OrgBlock (List SourceLine))
  | org b => some b
  | _ => none

theorem bodyOf?_eq_some_iff {d : Directive} {b : Block} {lines : List SourceLine} :
    b.bodyOf? d = some lines ↔ b.directive = d ∧ b.body = lines := by
  simp [bodyOf?]

theorem bodyOf?_eq_none_iff {d : Directive} {b : Block} :
    b.bodyOf? d = none ↔ b.directive ≠ d := by
  simp [bodyOf?]

theorem org?_eq_some_iff {b : Block} {block : OrgBlock (List SourceLine)} :
    b.org? = some block ↔ b = org block := by
  cases b <;> simp [org?]

theorem org?_eq_none_iff {b : Block} : b.org? = none ↔ b.directive ≠ .org := by
  cases b <;> simp [org?, directive]

theorem opener_eq {b : Block} (h : b.directive ≠ .org) : b.opener = .opening b.directive := by
  cases b with
  | main _ => rfl
  | interrupt _ => rfl
  | org _ => exact absurd rfl h

end Block

def programItems (head : List SourceLine) (blocks : List Block) : List Item :=
  .opening .head :: (head.map .code ++ .closing .head :: .opening .code ::
    (blocks.flatMap Block.items ++ [.closing .code]))

def SourceLine.canonical (l : SourceLine) : SourceLine :=
  ⟨l.number, trim (upper l.text)⟩

def OrgBlock.canonical (b : OrgBlock (List SourceLine)) : OrgBlock (List SourceLine) :=
  { location := upper b.location, line := b.line, body := b.body.map (·.canonical) }

def Program.canonical (p : Program) : Program :=
  { main := p.main.map (·.canonical)
    interrupt := p.interrupt.map (·.map (·.canonical))
    orgs := p.orgs.map (·.canonical) }

def Directive.marks : List Text :=
  [head, code, main, interrupt, org].flatMap fun d => [d.opening, d.closing]

theorem Directive.opening_mem_marks (d : Directive) : d.opening ∈ marks := by
  cases d <;> decide

theorem Directive.closing_mem_marks (d : Directive) : d.closing ∈ marks := by
  cases d <;> decide

theorem Directive.all_marks : ∀ mark ∈ marks,
    mark ≠ [] ∧ mark.all (fun c => !isBlank c && c != '/') = true := by
  decide

theorem Directive.mark_chars {mark : Text} (h : mark ∈ marks) :
    mark ≠ [] ∧ ∀ c ∈ mark, isBlank c = false ∧ c ≠ '/' := by
  obtain ⟨hne, hall⟩ := all_marks mark h
  refine ⟨hne, fun c hc => ?_⟩
  simpa using List.all_eq_true.mp hall c hc

namespace Text

def Marked (mark t : Text) : Prop :=
  ∃ back, Blank back ∧ '\n' ∉ back ∧ t = mark ++ back

theorem word_of_upper_mem_marks {word : Text} (h : upper word ∈ Directive.marks) :
    Tight word ∧ '/' ∉ word := by
  obtain ⟨hne, hchars⟩ := Directive.mark_chars h
  have hword : word ≠ [] := by
    rintro rfl
    exact hne rfl
  refine ⟨.of_not_isBlank hword fun c hc => ?_, fun hmem => ?_⟩
  · cases hblank : isBlank c with
    | false => rfl
    | true =>
        have hmem := mem_upper_of_upperChar_eq (upperChar_of_isBlank hblank) hc
        exact (hblank.symm.trans (hchars c hmem).1)
  · exact (hchars '/' (mem_upper_of_upperChar_eq (by decide) hmem)).2 rfl

theorem Alone.exists_marked {mark l l' : Text} (h : Alone mark l) (hmark : mark ∈ Directive.marks)
    (hline : '\n' ∉ l) (hchomped : Chomped l l') :
    ∃ code, significant? l' = some code ∧ Marked mark code := by
  obtain ⟨front, word, back, rfl, hfront, hback, rfl⟩ := h
  obtain ⟨htight, hslash⟩ := word_of_upper_mem_marks hmark
  obtain ⟨back', hpre, hcode⟩ :=
    significant?_of_tight htight (not_remarked_of_not_mem hslash) hfront hback hchomped
  refine ⟨_, hcode, back', fun c hc => hback c (hpre.subset hc), ?_, rfl⟩
  exact fun hmem => hline (List.mem_append_right _ (hpre.subset hmem))

theorem Located.tight {t : Text} (h : Located t) : Tight t ∧ '/' ∉ t := by
  obtain ⟨r, cs, rfl, -, hcs⟩ := h
  have hmarker : isBlank r.marker = false ∧ r.marker ≠ '/' := by cases r <;> decide
  refine ⟨.of_not_isBlank (List.cons_ne_nil _ _) fun c hc => ?_, fun hmem => ?_⟩
  · rcases List.mem_cons.mp hc with rfl | hc
    · exact hmarker.1
    · exact (hcs c hc).1
  · rcases List.mem_cons.mp hmem with heq | hmem
    · exact hmarker.2 heq.symm
    · exact (hcs '/' hmem).2.2.1 rfl

end Text

namespace Item

def Stands : Item → SourceLine → Prop
  | opening d, s => Marked d.opening s.text
  | closing d, s => Marked d.closing s.text
  | org number location, s => s.number = number ∧ Located location ∧
      ∃ gap back, Blank gap ∧ Blank back ∧ '\n' ∉ gap ++ back ∧
        s.text = Directive.org.opening ++ gap ++ upper location ++ back
  | code line, s => s.number = line.number ∧ '\n' ∉ s.text ∧ '.' ∉ s.text ∧ trim s.text ≠ [] ∧
      trim s.text = trim (upper line.text)

theorem stands_of_org {n number : Nat} {location l l' : Text}
    (h : (org number location).Holds n l) (hline : '\n' ∉ l) (hchomped : Chomped l l') :
    ∃ code, significant? l' = some code ∧ (org number location).Stands ⟨n, code⟩ := by
  obtain ⟨rfl, hlocated, front, word, gap, back, rfl, hfront, hgap, hback, hword⟩ := h
  obtain ⟨htight, hslash⟩ := word_of_upper_mem_marks (hword ▸ Directive.org.opening_mem_marks)
  obtain ⟨hltight, hlslash⟩ := hlocated.tight
  have hremark : ¬Remarked (word ++ gap ++ location) := by
    apply not_remarked_of_not_mem
    simp [hslash, hlslash, hgap.not_mem (by decide : isBlank '/' = false)]
  obtain ⟨back', hpre, hcode⟩ :=
    significant?_of_tight (htight.append hltight gap) hremark hfront hback hchomped
  refine ⟨_, hcode, rfl, hlocated, gap, back', hgap, fun c hc => hback c (hpre.subset hc), ?_, ?_⟩
  · intro hmem
    rcases List.mem_append.mp hmem with hmem | hmem
    · exact hline (by simp [hmem])
    · exact hline (List.mem_append_right _ (hpre.subset hmem))
  · rw [upper_append, upper_append, hgap.upper_eq, hword]

theorem stands_of_code {n : Nat} {line : SourceLine} {l l' : Text} (h : (code line).Holds n l)
    (hchomped : Chomped l l') :
    ∃ t, significant? l' = some t ∧ (code line).Stands ⟨n, t⟩ := by
  obtain ⟨rfl, hplain, front, hfront, rfl⟩ := h
  obtain ⟨before, after, hbefore, hafter, htight, heq⟩ := exists_trim_append hplain.notBlank
  have hwithin : trim line.text <:+: line.text := ⟨before, after, heq.symm⟩
  have hl : front ++ line.text = (front ++ before) ++ trim line.text ++ after := by
    rw [List.append_assoc front, List.append_assoc front, ← heq]
  rw [hl] at hchomped
  have hremark : ¬Remarked (trim line.text) := by
    intro hremark
    exact hplain.unremarked (hremark.trans hwithin)
  obtain ⟨after', hpre, hcode⟩ :=
    significant?_of_tight htight hremark (hfront.append hbefore) hafter hchomped
  have hafter' : Blank after' := fun c hc => hafter c (hpre.subset hc)
  have hupper : upper line.text = before ++ upper (trim line.text) ++ after :=
    (congrArg upper heq).trans (upper_append_append hbefore hafter)
  have htext : ∀ c ∈ upper (trim line.text) ++ after', c ∈ upper line.text := by
    intro c hc
    rw [hupper, List.append_assoc]
    apply List.mem_append_right
    rcases List.mem_append.mp hc with hc | hc
    · exact List.mem_append_left _ hc
    · exact List.mem_append_right _ (hpre.subset hc)
  have htrim : trim (upper (trim line.text) ++ after') = upper (trim line.text) :=
    htight.upper.trim_append_right hafter'
  refine ⟨_, hcode, rfl, ?_, fun hdot => hplain.undotted (htext '.' hdot), ?_, ?_⟩
  · exact fun hmem => hplain.oneLine (mem_of_mem_upper (by decide) (htext '\n' hmem))
  · rw [htrim]
    exact htight.upper.ne_nil
  · rw [htrim, trim_upper]

theorem Holds.exists_stands {n : Nat} {item : Item} {l l' : Text} (h : item.Holds n l)
    (hline : '\n' ∉ l) (hchomped : Chomped l l') :
    ∃ code, significant? l' = some code ∧ item.Stands ⟨n, code⟩ := by
  cases item with
  | opening d => exact Alone.exists_marked h d.opening_mem_marks hline hchomped
  | closing d => exact Alone.exists_marked h d.closing_mem_marks hline hchomped
  | org number location => exact stands_of_org h hline hchomped
  | code line => exact stands_of_code h hchomped

end Item

namespace Written

theorem oneLine {n : Nat} {items : List Item} {ls : List Text} (h : Written n items ls) :
    ∀ l ∈ ls, '\n' ∉ l := by
  induction h with
  | nil => simp
  | filler oneLine _ _ ih => exact List.forall_mem_cons.mpr ⟨oneLine, ih⟩
  | item oneLine _ _ ih => exact List.forall_mem_cons.mpr ⟨oneLine, ih⟩

theorem forall₂_significant {n : Nat} {items : List Item} {ls ls' : List Text}
    (h : Written n items ls) (hchomped : List.Forall₂ Chomped ls ls') :
    List.Forall₂ Item.Stands items (Source.significant n ls') := by
  induction h generalizing ls' with
  | nil =>
      cases hchomped
      exact .nil
  | filler _ idle _ ih =>
      cases hchomped with
      | cons head tail =>
          rw [Source.significant_cons_none (significant?_of_filler idle head)]
          exact ih tail
  | item oneLine holds _ ih =>
      cases hchomped with
      | cons head tail =>
          obtain ⟨code, hcode, hstands⟩ := holds.exists_stands oneLine head
          rw [Source.significant_cons_some hcode]
          exact .cons hstands (ih tail)

theorem forall₂_normalize {items : List Item} {ls : List Text} (h : Written 1 items ls) :
    List.Forall₂ Item.Stands items (Source.normalize (unlines ls)).lines := by
  obtain ⟨ls', hchomped, hlines⟩ := Source.lines_normalize_unlines h.oneLine
  rw [hlines]
  exact h.forall₂_significant hchomped

end Written

end CrossAssembler
