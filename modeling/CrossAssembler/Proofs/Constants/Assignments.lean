import CrossAssembler.Proofs.Statement.Modes
import Mathlib.Data.List.TakeWhile

namespace CrossAssembler

open Outcome Sequence Text

namespace Text

theorem cutAt?_eq_ite (p : Char → Bool) (t : Text) :
    cutAt? p t =
      if t.any p then some (t.takeWhile (!p ·), (t.dropWhile (!p ·)).tail) else none := by
  induction t with
  | nil => rfl
  | cons c t ih =>
      rw [cutAt?, ih]
      cases hc : p c with
      | true => simp [hc]
      | false => cases hany : t.any p <;> simp [hc, hany]

end Text

namespace Constants

structure Assignment where
  line : Nat
  name : Text
  value : Text

namespace Assignment

variable {x : Assignment} {xs : List Assignment}

def ofLine? (l : SourceLine) : Option Assignment :=
  if '=' ∈ l.text then
    some
      { line := l.number
        name := squeeze (l.text.takeWhile (· != '='))
        value := squeeze (l.text.dropWhile (· != '=')).tail }
  else none

def inLines (lines : List SourceLine) : List Assignment :=
  lines.filterMap ofLine?

structure Sound (x : Assignment) : Prop where
  named : x.name ≠ []
  plain : ∀ c ∈ x.name, isReserved c = false
  valued : ∃ l, Literal.parse? x.value = some l

inductive Faulty (x : Assignment) : Fault → Prop
  | unnamed (empty : x.name = []) : Faulty x .emptyLabel
  | reserved {c : Char} (mem : c ∈ x.name) (special : isReserved c = true) :
      Faulty x (.invalidLabel x.name)
  | unvalued (named : x.name ≠ []) (plain : ∀ c ∈ x.name, isReserved c = false)
      (unread : Literal.parse? x.value = none) : Faulty x (.invalidConstant x.name x.value)

def IsLast (xs : List Assignment) (x : Assignment) : Prop :=
  ∃ before after, xs = before ++ x :: after ∧ ∀ y ∈ after, y.name ≠ x.name

theorem IsLast.mem (h : IsLast xs x) : x ∈ xs := by
  obtain ⟨before, after, rfl, -⟩ := h
  simp

def entry (x : Assignment) : Except Error (Text × Constant) :=
  ((check x.name x.value).mapError (·.onLine .head x.line)).map fun l => (x.name, ⟨x.line, l⟩)

theorem assignment?_eq (l : SourceLine) :
    assignment? l.text = (ofLine? l).map fun x => (x.name, x.value) := by
  rw [assignment?, cutAt?_eq_ite, ofLine?]
  by_cases h : '=' ∈ l.text <;> simp [h, bne]

theorem ofLine?_eq_some {l : SourceLine} (h : ofLine? l = some x) :
    x.line = l.number ∧ ∀ c ∈ x.name, isBlank c = false := by
  unfold ofLine? at h
  split at h
  · obtain rfl := Option.some.inj h
    exact ⟨rfl, fun c hc => not_isBlank_of_mem_squeeze hc⟩
  · simp at h

theorem solid_of_mem_inLines {lines : List SourceLine} (h : x ∈ inLines lines) :
    ∀ c ∈ x.name, isBlank c = false := by
  obtain ⟨l, -, hl⟩ := List.mem_filterMap.mp h
  exact (ofLine?_eq_some hl).2

theorem entry_eq_ok_iff {e : Text × Constant} :
    x.entry = .ok e ↔ checkName x.name = .ok () ∧ e.1 = x.name ∧ e.2.line = x.line ∧
      Literal.parse? x.value = some e.2.value := by
  simp only [entry, map_eq_ok, mapError_eq_ok, check_eq_ok_iff]
  constructor
  · rintro ⟨l, ⟨hname, hvalue⟩, rfl⟩
    exact ⟨hname, rfl, rfl, hvalue⟩
  · rintro ⟨hname, hkey, hline, hvalue⟩
    exact ⟨_, ⟨hname, hvalue⟩, Prod.ext hkey.symm (by rw [← hline])⟩

theorem exists_entry_eq_ok_iff : (∃ e, x.entry = .ok e) ↔ x.Sound := by
  simp only [entry_eq_ok_iff, checkName_eq_ok_iff]
  constructor
  · rintro ⟨e, ⟨hne, hplain⟩, -, -, hvalue⟩
    exact ⟨hne, hplain, _, hvalue⟩
  · rintro ⟨hne, hplain, l, hvalue⟩
    exact ⟨(x.name, ⟨x.line, l⟩), ⟨hne, hplain⟩, rfl, rfl, hvalue⟩

theorem check_eq_error_iff {f : Fault} : check x.name x.value = .error f ↔ x.Faulty f := by
  unfold check checkName
  constructor
  · intro h
    split at h
    · rename_i hempty
      obtain rfl := Except.error.inj h
      exact .unnamed (by simpa using hempty)
    · rename_i hne
      have hne : x.name ≠ [] := by simpa using hne
      split at h
      · rename_i hany
        obtain ⟨c, hc, hreserved⟩ := List.any_eq_true.mp hany
        obtain rfl := Except.error.inj h
        exact .reserved hc hreserved
      · rename_i hplain
        have hplain : ∀ c ∈ x.name, isReserved c = false := by simpa using hplain
        rw [ok_bind] at h
        split at h
        · rename_i hnone
          obtain rfl := Except.error.inj h
          exact .unvalued hne hplain hnone
        · simp [pure, Except.pure] at h
  · intro h
    cases h with
    | unnamed empty => simp [empty]
    | reserved mem special =>
        have hany : x.name.any isReserved = true := List.any_eq_true.mpr ⟨_, mem, special⟩
        simp [List.ne_nil_of_mem mem, hany]
    | unvalued named plain unread =>
        have hany : x.name.any isReserved = false := by simpa using plain
        simp only [List.isEmpty_eq_false_iff.mpr named, hany, unread]
        rfl

theorem entry_eq_error_iff {e : Error} :
    x.entry = .error e ↔ ∃ f, x.Faulty f ∧ e = f.onLine .head x.line := by
  simp only [entry, map_eq_error, mapError_eq_error, check_eq_error_iff]

theorem last?_iff {es : List (Text × Constant)}
    (h : List.Forall₂ (fun x e => entry x = .ok e) xs es) {name : Text} {c : Constant} :
    NameTable.last? es name = some c ↔ ∃ x, IsLast xs x ∧ x.entry = .ok (name, c) := by
  have hkey : ∀ {y e}, entry y = .ok e → e.1 = y.name := fun hy => (entry_eq_ok_iff.mp hy).2.1
  rw [NameTable.last?_eq_some_iff]
  constructor
  · rintro ⟨before, after, rfl, hafter⟩
    obtain ⟨front, back, rfl, -, hback⟩ := exists_append_of_forall₂_append h.flip
    cases hback with
    | @cons _ x _ rest hx hrest =>
        refine ⟨x, ⟨front, rest, rfl, fun y hy => ?_⟩, hx⟩
        obtain ⟨e, he, hye⟩ := exists_of_forall₂_of_mem hrest hy
        rw [← hkey hye, ← hkey hx]
        exact hafter e he
  · rintro ⟨x, ⟨front, rest, rfl, hrest⟩, hx⟩
    obtain ⟨before, back, rfl, -, hback⟩ := exists_append_of_forall₂_append h
    cases hback with
    | @cons _ e _ after hxe hafter =>
        obtain rfl : e = (name, c) := Except.ok.inj (hxe.symm.trans hx)
        refine ⟨before, after, rfl, fun e he => ?_⟩
        obtain ⟨y, hy, hye⟩ := exists_of_forall₂_of_mem hafter he
        rw [hkey hye, show name = x.name from hkey hx]
        exact hrest y hy

end Assignment

open Assignment

theorem result_collect (labels : Labels) (lines : List SourceLine) :
    (collect labels lines).result = ((inLines lines).mapM entry).map fun es =>
      { labels with consts := labels.consts.putAll es } := by
  induction lines generalizing labels with
  | nil => rfl
  | cons l lines ih =>
      rw [result_collect_cons, assignment?_eq]
      cases hl : ofLine? l with
      | none => simpa [inLines, hl] using ih labels
      | some x =>
          have hcons : inLines (l :: lines) = x :: inLines lines := by simp [inLines, hl]
          rw [hcons, List.mapM_cons]
          simp only [Option.map_some, entry, ih, ← (ofLine?_eq_some hl).1]
          cases check x.name x.value with
          | error f => rfl
          | ok v => cases (inLines lines).mapM entry <;> rfl

theorem collect_empty_eq_ok_iff {lines : List SourceLine} {labels : Labels} :
    (collect .empty lines).result = .ok labels ↔
      ∃ es, List.Forall₂ (fun x e => entry x = .ok e) (inLines lines) es ∧
        labels = { consts := NameTable.putAll [] es } := by
  simp only [result_collect, map_eq_ok, mapM_eq_ok, eq_comm (b := labels)]
  rfl

theorem exists_collect_iff {lines : List SourceLine} :
    (∃ labels, (collect .empty lines).result = .ok labels) ↔ ∀ x ∈ inLines lines, x.Sound := by
  simp only [result_collect, map_eq_ok, ← exists_entry_eq_ok_iff, ← exists_mapM_eq_ok_iff]
  constructor
  · rintro ⟨_, es, hes, -⟩
    exact ⟨es, hes⟩
  · rintro ⟨es, hes⟩
    exact ⟨_, es, hes, rfl⟩

theorem collect_eq_error_iff {lines : List SourceLine} {e : Error} :
    (collect .empty lines).result = .error e ↔
      ∃ before x after f, inLines lines = before ++ x :: after ∧ (∀ y ∈ before, y.Sound) ∧
        x.Faulty f ∧ e = f.onLine .head x.line := by
  simp only [result_collect, map_eq_error, mapM_eq_error_iff, exists_entry_eq_ok_iff,
    entry_eq_error_iff]
  constructor
  · rintro ⟨before, x, after, heq, hbefore, f, hf, rfl⟩
    exact ⟨before, x, after, f, heq, hbefore, hf, rfl⟩
  · rintro ⟨before, x, after, f, heq, hbefore, hf, rfl⟩
    exact ⟨before, x, after, heq, hbefore, f, hf, rfl⟩

structure Records (xs : List Assignment) (labels : Labels) : Prop where
  names : labels.consts.map Prod.fst = (xs.map (·.name)).eraseDups
  entry : ∀ name c, (name, c) ∈ labels.consts → ∃ x, IsLast xs x ∧ x.name = name ∧
    x.line = c.line ∧ Literal.parse? x.value = some c.value
  constant : ∀ name l, labels.constant? name = some l ↔
    ∃ x, IsLast xs x ∧ x.name = name ∧ Literal.parse? x.value = some l
  absent : ∀ name, labels.constant? name = none ↔ ∀ x ∈ xs, x.name ≠ name

theorem records_of_entries {xs : List Assignment} {es : List (Text × Constant)}
    (h : List.Forall₂ (fun x e => entry x = .ok e) xs es) :
    Records xs { consts := NameTable.putAll [] es } := by
  have hnames : (NameTable.putAll [] es).map Prod.fst = (xs.map (·.name)).eraseDups := by
    rw [NameTable.map_fst_putAll_nil,
      map_eq_of_forall₂ (h.imp fun _ _ hx => (entry_eq_ok_iff.mp hx).2.1)]
  have hlast : ∀ {name c}, (NameTable.putAll [] es).get? name = some c ↔
      ∃ x, IsLast xs x ∧ x.entry = .ok (name, c) := by
    intro name c
    rw [NameTable.get?_putAll_nil, last?_iff h]
  refine ⟨hnames, fun name c hmem => ?_, fun name l => ?_, fun name => ?_⟩
  · rw [← NameTable.get?_eq_some_iff_mem (NameTable.nodup_map_fst_putAll_nil es), hlast] at hmem
    obtain ⟨x, hx, hentry⟩ := hmem
    obtain ⟨-, hname, hline, hvalue⟩ := entry_eq_ok_iff.mp hentry
    exact ⟨x, hx, hname.symm, hline.symm, hvalue⟩
  · simp only [Labels.constant?, Option.map_eq_some_iff, hlast]
    constructor
    · rintro ⟨c, ⟨x, hx, hentry⟩, rfl⟩
      obtain ⟨-, hname, -, hvalue⟩ := entry_eq_ok_iff.mp hentry
      exact ⟨x, hx, hname.symm, hvalue⟩
    · rintro ⟨x, hx, rfl, hvalue⟩
      obtain ⟨e, -, hentry⟩ := exists_of_forall₂_of_mem h.flip hx.mem
      obtain ⟨hnamed, -⟩ := entry_eq_ok_iff.mp hentry
      exact ⟨⟨x.line, l⟩, ⟨x, hx, entry_eq_ok_iff.mpr ⟨hnamed, rfl, rfl, hvalue⟩⟩, rfl⟩
  · rw [Labels.constant?, Option.map_eq_none_iff, NameTable.get?_eq_none_iff, hnames,
      List.mem_eraseDups, List.mem_map]
    simp

structure Referable (labels : Labels) (name : Text) (l : Literal) : Prop where
  spelled : Statement.ReadsOperand name
  spelledImmediate : Statement.ReadsOperand ('#' :: name)
  direct : ∀ later : Labels, later.consts = labels.consts → ∀ m,
    Operand.parse m name later = .ok (.direct l)
  immediate : ∀ later : Labels, later.consts = labels.consts → ∀ m,
    Operand.parse m ('#' :: name) later = .ok (.immediate l)

theorem referable_of_collect {lines : List SourceLine} {labels : Labels} {name : Text} {l : Literal}
    (h : (collect .empty lines).result = .ok labels) (hl : labels.constant? name = some l)
    (hsolid : ∀ c ∈ name, isBlank c = false) : Referable labels name l := by
  have hnamed : labels.Named := fun _ _ => checkName_of_constant? h rfl
  obtain ⟨hne, hplain⟩ := checkName_eq_ok_iff.mp (hnamed name l hl)
  have hcolon : ':' ∉ name := by
    intro hmem
    simpa [isReserved] using hplain ':' hmem
  have hlater : ∀ later : Labels, later.consts = labels.consts →
      later.literal? name = some l := by
    intro later hconsts
    apply Labels.literal?_of_constant?
    rwa [Labels.constant?, hconsts]
  refine ⟨Statement.readsOperand_of_solid hne hsolid hcolon,
    Statement.readsOperand_of_solid (by simp) ?_ (by simpa using hcolon),
    fun later hconsts m => ?_, fun later hconsts m => ?_⟩
  · exact List.forall_mem_cons.mpr ⟨by decide, hsolid⟩
  · have hhash : name.head? ≠ some '#' :=
      (hnamed.ne_nil_and_head?_ne (Labels.literal?_of_constant? hl)).2
    exact (Operand.parse_eq_direct_iff hne hhash).mpr (hlater later hconsts)
  · exact Operand.parse_eq_immediate_iff.mpr (hlater later hconsts)

theorem collect_assignments (src : Source) (head : Span) :
    ((∃ labels, (collect .empty (src.linesIn head)).result = .ok labels) ↔
      ∀ x ∈ inLines (src.linesIn head), x.Sound) ∧
    (∀ labels, (collect .empty (src.linesIn head)).result = .ok labels →
      Records (inLines (src.linesIn head)) labels ∧
      ∀ name l, labels.constant? name = some l → Referable labels name l) ∧
    ∀ e, (collect .empty (src.linesIn head)).result = .error e ↔
      ∃ before x after f, inLines (src.linesIn head) = before ++ x :: after ∧
        (∀ y ∈ before, y.Sound) ∧ x.Faulty f ∧ e = f.onLine .head x.line := by
  refine ⟨exists_collect_iff, fun labels hok => ?_, fun e => collect_eq_error_iff⟩
  obtain ⟨es, hes, rfl⟩ := collect_empty_eq_ok_iff.mp hok
  have hrecords := records_of_entries hes
  refine ⟨hrecords, fun name l hl => referable_of_collect hok hl ?_⟩
  obtain ⟨x, hx, rfl, -⟩ := (hrecords.constant name l).mp hl
  exact solid_of_mem_inLines hx.mem

def revisedHead : Source :=
  Source.normalize "my name = $1f\na note\nlimit = % 12\nMYNAME=¬11 // again\n".toList

def revisedLabels : Labels :=
  { consts := [("MYNAME".toList, ⟨4, ⟨.bin, 3⟩⟩), ("LIMIT".toList, ⟨3, ⟨.dec, 12⟩⟩)] }

theorem collect_assignments_revisedHead :
    (collect .empty (revisedHead.linesIn revisedHead.all)).result = .ok revisedLabels ∧
      Records (inLines (revisedHead.linesIn revisedHead.all)) revisedLabels ∧
      Referable revisedLabels "MYNAME".toList ⟨.bin, 3⟩ := by
  have hok : (collect .empty (revisedHead.linesIn revisedHead.all)).result = .ok revisedLabels := by
    decide +kernel
  obtain ⟨hrecords, hreferable⟩ := (collect_assignments revisedHead revisedHead.all).2.1 _ hok
  exact ⟨hok, hrecords, hreferable _ _ (by decide)⟩

end Constants

end CrossAssembler
