import CrossAssembler.Proofs.Labels.Table

namespace CrossAssembler

namespace Labels

inductive Call where
  | define (name : Text) (line : Nat) (value : Literal)
  | bind (name : Text) (line : Nat) (kind : SectionKind) (address : Nat)
deriving DecidableEq

inductive Answer where
  | replaced (earlier : Option Constant)
  | bound
  | refused (fault : Fault)
deriving DecidableEq

variable {ls ls' : Labels} {c : Call} {answer : Answer}

def call (ls : Labels) : Call → Labels × Answer
  | .define name line value =>
      let (ls', earlier) := ls.define name line value
      (ls', .replaced earlier)
  | .bind name line kind address =>
      match (ls.bind name line kind address).result with
      | .ok ls' => (ls', .bound)
      | .error fault => (ls, .refused fault)

def after (ls : Labels) : List Call → Labels
  | [] => ls
  | c :: calls => (ls.call c).1.after calls

def history (ls : Labels) : List Call → List (Call × Answer)
  | [] => []
  | c :: calls => (c, (ls.call c).2) :: (ls.call c).1.history calls

def Call.definition? : Call → Option (Text × Constant)
  | .define name line value => some (name, ⟨line, value⟩)
  | .bind .. => none

def Call.definitions (calls : List Call) : List (Text × Constant) :=
  calls.filterMap definition?

def binding? : Call × Answer → Option (Text × CodeLabel)
  | (.bind name line kind address, .bound) => some (name, ⟨line, kind, address⟩)
  | _ => none

inductive Gives (ls : Labels) : Call → Labels → Answer → Prop
  | define (name : Text) (line : Nat) (value : Literal) :
      Gives ls (.define name line value) { ls with consts := ls.consts.put name ⟨line, value⟩ }
        (.replaced (ls.consts.get? name))
  | constant {name : Text} {line address : Nat} {kind : SectionKind}
      (hconst : name ∈ ls.consts.map Prod.fst) :
      Gives ls (.bind name line kind address) ls (.refused (.definedAsConstant name))
  | label {name : Text} {line address : Nat} {kind : SectionKind}
      (hconst : name ∉ ls.consts.map Prod.fst) (hcode : name ∈ ls.codes.map Prod.fst) :
      Gives ls (.bind name line kind address) ls (.refused (.redefinedLabel name))
  | fresh {name : Text} {line address : Nat} {kind : SectionKind}
      (hconst : name ∉ ls.consts.map Prod.fst) (hcode : name ∉ ls.codes.map Prod.fst) :
      Gives ls (.bind name line kind address)
        { ls with codes := ls.codes ++ [(name, ⟨line, kind, address⟩)] } .bound

theorem gives_call (ls : Labels) (c : Call) : ls.Gives c (ls.call c).1 (ls.call c).2 := by
  cases c with
  | define name line value => exact .define name line value
  | bind name line kind address =>
      rw [call, result_bind]
      by_cases hconst : name ∈ ls.consts.map Prod.fst
      · rw [if_pos hconst]
        exact .constant hconst
      · rw [if_neg hconst]
        by_cases hcode : name ∈ ls.codes.map Prod.fst
        · rw [if_pos hcode]
          exact .label hconst hcode
        · rw [if_neg hcode]
          exact .fresh hconst hcode

namespace Gives

theorem consts_eq (h : ls.Gives c ls' answer) :
    ls'.consts = ls.consts.putAll (Call.definitions [c]) := by
  cases h <;> rfl

theorem codes_eq (h : ls.Gives c ls' answer) :
    ls'.codes = ls.codes ++ [(c, answer)].filterMap binding? := by
  cases h with
  | define | constant | label => exact (List.append_nil _).symm
  | fresh => rfl

theorem names_nodup (h : ls.Gives c ls' answer) (hnodup : (ls.codes.map Prod.fst).Nodup) :
    (ls'.codes.map Prod.fst).Nodup := by
  cases h with
  | define | constant | label => exact hnodup
  | fresh _ hcode =>
      rw [List.map_append, List.map_singleton, ← List.concat_eq_append]
      exact hnodup.concat hcode

end Gives

theorem after_append (ls : Labels) (calls calls' : List Call) :
    ls.after (calls ++ calls') = (ls.after calls).after calls' := by
  induction calls generalizing ls with
  | nil => rfl
  | cons c calls ih => exact ih (ls.call c).1

theorem history_append (ls : Labels) (calls calls' : List Call) :
    ls.history (calls ++ calls') = ls.history calls ++ (ls.after calls).history calls' := by
  induction calls generalizing ls with
  | nil => rfl
  | cons c calls ih => exact congrArg (_ :: ·) (ih (ls.call c).1)

theorem map_fst_history (ls : Labels) (calls : List Call) :
    (ls.history calls).map Prod.fst = calls := by
  induction calls generalizing ls with
  | nil => rfl
  | cons c calls ih => exact congrArg (c :: ·) (ih (ls.call c).1)

theorem getElem?_history (ls : Labels) (before : List Call) (c : Call) (rest : List Call) :
    (ls.history (before ++ c :: rest))[before.length]? =
      some (c, ((ls.after before).call c).2) := by
  have hlength : before.length = (ls.history before).length := by
    conv_lhs => rw [← map_fst_history ls before, List.length_map]
  rw [history_append, List.getElem?_append_right (Nat.le_of_eq hlength.symm), hlength, Nat.sub_self]
  rfl

theorem consts_after (ls : Labels) (calls : List Call) :
    (ls.after calls).consts = ls.consts.putAll (Call.definitions calls) := by
  induction calls generalizing ls with
  | nil => rfl
  | cons c calls ih =>
      rw [after, ih, (ls.gives_call c).consts_eq, ← NameTable.putAll_append, Call.definitions,
        Call.definitions, ← List.filterMap_append, List.singleton_append]
      rfl

theorem codes_after (ls : Labels) (calls : List Call) :
    (ls.after calls).codes = ls.codes ++ (ls.history calls).filterMap binding? := by
  induction calls generalizing ls with
  | nil => exact (List.append_nil _).symm
  | cons c calls ih =>
      rw [after, ih, (ls.gives_call c).codes_eq, history, List.append_assoc,
        ← List.filterMap_append, List.singleton_append]

theorem names_nodup_after (hnodup : (ls.codes.map Prod.fst).Nodup) (calls : List Call) :
    ((ls.after calls).codes.map Prod.fst).Nodup := by
  induction calls generalizing ls with
  | nil => exact hnodup
  | cons c calls ih => exact ih ((ls.gives_call c).names_nodup hnodup)

theorem address?_after {name : Text} {address : Nat} (h : ls.address? name = some address)
    (calls : List Call) : (ls.after calls).address? name = some address := by
  obtain ⟨code, hcode, rfl⟩ := Option.map_eq_some_iff.mp h
  rw [address?, codes_after, NameTable.get?_append, hcode]
  rfl

theorem consts_after_empty (calls : List Call) :
    (empty.after calls).consts = NameTable.putAll [] (Call.definitions calls) :=
  consts_after empty calls

theorem names_nodup_after_empty (calls : List Call) :
    ((empty.after calls).codes.map Prod.fst).Nodup :=
  @names_nodup_after empty List.nodup_nil calls

structure Answered (before : List Call) (c : Call) (answer : Answer) : Prop where
  define : ∀ name line value, c = .define name line value →
    answer = .replaced (NameTable.last? (Call.definitions before) name)
  constant : ∀ name line kind address, c = .bind name line kind address →
    (answer = .refused (.definedAsConstant name) ↔
      name ∈ (empty.after before).consts.map Prod.fst)
  label : ∀ name line kind address, c = .bind name line kind address →
    (answer = .refused (.redefinedLabel name) ↔
      name ∉ (empty.after before).consts.map Prod.fst ∧
        name ∈ (empty.after before).codes.map Prod.fst)
  bound : ∀ name line kind address, c = .bind name line kind address →
    (answer = .bound ↔
      name ∉ (empty.after before).consts.map Prod.fst ∧
        name ∉ (empty.after before).codes.map Prod.fst)
  unchanged : ∀ fault, answer = .refused fault → empty.after (before ++ [c]) = empty.after before

theorem Gives.answered {before : List Call}
    (h : (empty.after before).Gives c (empty.after (before ++ [c])) answer) :
    Answered before c answer := by
  generalize hnext : empty.after (before ++ [c]) = next at h
  cases h with
  | define name line value =>
      refine ⟨?_, nofun, nofun, nofun, nofun⟩
      rintro _ _ _ ⟨⟩
      rw [consts_after_empty, NameTable.get?_putAll_nil]
  | constant hconst =>
      refine ⟨nofun, ?_, ?_, ?_, fun _ _ => hnext⟩ <;> rintro _ _ _ _ ⟨⟩ <;> simp [hconst]
  | label hconst hcode =>
      refine ⟨nofun, ?_, ?_, ?_, fun _ _ => hnext⟩ <;> rintro _ _ _ _ ⟨⟩ <;> simp [hconst, hcode]
  | fresh hconst hcode =>
      refine ⟨nofun, ?_, ?_, ?_, nofun⟩ <;> rintro _ _ _ _ ⟨⟩ <;> simp [hconst, hcode]

theorem answered_call (before : List Call) (c : Call) :
    Answered before c ((empty.after before).call c).2 := by
  apply Gives.answered
  rw [after_append]
  exact (empty.after before).gives_call c

theorem after_recorded (calls : List Call) :
    ((empty.after calls).codes = (empty.history calls).filterMap binding? ∧
      ((empty.after calls).codes.map Prod.fst).Nodup ∧
      ∀ name address, (empty.after calls).address? name = some address →
        ∀ more, (empty.after (calls ++ more)).address? name = some address) ∧
    ((empty.after calls).consts.map Prod.fst =
        ((Call.definitions calls).map Prod.fst).eraseDups ∧
      ((empty.after calls).consts.map Prod.fst).Nodup ∧
      ∀ entry ∈ (empty.after calls).consts,
        NameTable.last? (Call.definitions calls) entry.1 = some entry.2) ∧
    (empty.history calls).map Prod.fst = calls ∧
    ∀ before c rest, calls = before ++ c :: rest → ∃ answer,
      (empty.history calls)[before.length]? = some (c, answer) ∧ Answered before c answer := by
  refine ⟨⟨codes_after empty calls, names_nodup_after_empty calls, ?_⟩, ?_,
    map_fst_history empty calls, ?_⟩
  · intro name address h more
    rw [after_append]
    exact address?_after h more
  · have hnodup := NameTable.nodup_map_fst_putAll_nil (Call.definitions calls)
    rw [consts_after_empty]
    refine ⟨NameTable.map_fst_putAll_nil _, hnodup, fun entry hentry => ?_⟩
    rw [← NameTable.get?_putAll_nil]
    exact (NameTable.get?_eq_some_iff_mem hnodup).mpr hentry
  · rintro before c rest rfl
    exact ⟨_, getElem?_history empty before c rest, answered_call before c⟩

end Labels

end CrossAssembler
