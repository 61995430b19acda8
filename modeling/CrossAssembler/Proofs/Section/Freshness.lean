import CrossAssembler.Proofs.Section.Listing

namespace CrossAssembler.Section

variable {bus : Bus} {site : Site} {labels labels' : Labels} {offset : Nat}
  {lines : List SourceLine} {words : List Word} {rows : List Row}

theorem map_fst_declarationsAt (kind : SectionKind) (base : Nat) (rows : List Row) :
    (declarationsAt kind base rows).map Prod.fst = rows.filterMap (·.declared?) :=
  map_fst_declarations ⟨kind, base, [], rows⟩

theorem BodyEncodes.names_fresh (h : BodyEncodes bus site labels offset lines labels' words rows)
    {name : Text} (hname : name ∈ rows.filterMap (·.declared?)) :
    name ∉ labels.codes.map Prod.fst := by
  induction h with
  | nil => simp at hname
  | cons head _ ih =>
      cases head with
      | label parsed _ _ _ fresh =>
          simp only [List.filterMap_cons, Row.declared?, parsed, List.mem_cons] at hname
          rcases hname with rfl | hname
          · exact NameTable.get?_eq_none_iff.mp fresh
          · have := ih hname
            simp only [List.map_append, List.mem_append, not_or] at this
            exact this.1
      | instruction parsed =>
          simp only [List.filterMap_cons, Row.declared?, parsed] at hname
          exact ih hname

theorem BodyEncodes.names_distinct
    (h : BodyEncodes bus site labels offset lines labels' words rows) :
    (rows.filterMap (·.declared?)).Nodup := by
  induction h with
  | nil => exact .nil
  | cons head tail ih =>
      cases head with
      | label parsed =>
          simp only [List.filterMap_cons, Row.declared?, parsed, List.nodup_cons]
          refine ⟨fun hname => ?_, ih⟩
          have := tail.names_fresh hname
          simp at this
      | instruction parsed =>
          simpa only [List.filterMap_cons, Row.declared?, parsed] using ih

theorem BodyEncodes.of_fresh (h : BodyEncodes bus site labels offset lines labels' words rows)
    {other : Labels} (hconsts : other.consts = labels.consts)
    (hfresh : ∀ name ∈ rows.filterMap (·.declared?), name ∉ other.codes.map Prod.fst) :
    BodyEncodes bus site other offset lines
      { other with codes := other.codes ++ declarationsAt site.kind site.base rows } words rows := by
  -- The table is threaded through the lines, so it is generalised; a label line adds to both tables
  -- the one name that the rest of the body does not declare again.
  induction h generalizing other with
  | nil =>
      simp only [declarationsAt, List.filterMap_nil, List.append_nil]
      exact .nil other _
  | @cons _ _ _ offset line _ _ _ rows head tail ih =>
      have hdistinct := (BodyEncodes.cons head tail).names_distinct
      cases head with
      | @label name parsed named room noConst fresh =>
          simp only [List.filterMap_cons, Row.declared?, parsed, List.mem_cons,
            forall_eq_or_imp] at hfresh
          simp only [List.filterMap_cons, Row.declared?, parsed, List.nodup_cons] at hdistinct
          let other' : Labels := { other with
            codes := other.codes ++ [(name, ⟨line.number, site.kind, site.base + offset⟩)] }
          have hhead : LineEncodes bus site other offset line other' [] :=
            .label parsed named room (hconsts ▸ noConst) (NameTable.get?_eq_none_iff.mpr hfresh.1)
          have htail := @ih other' hconsts ?_
          · have := BodyEncodes.cons hhead htail
            simpa [other', declarationsAt, Row.declared?, parsed] using this
          · intro later hlater
            simp only [other', List.map_append, List.map_cons, List.map_nil, List.mem_append,
              List.mem_singleton, not_or]
            refine ⟨hfresh.2 later hlater, ?_⟩
            rintro rfl
            exact hdistinct.1 hlater
      | instruction parsed encoded room =>
          simp only [List.filterMap_cons, Row.declared?, parsed] at hfresh
          rw [encode_congr hconsts.symm] at encoded
          have := BodyEncodes.cons (.instruction parsed encoded room) (ih hconsts hfresh)
          simpa [declarationsAt, Row.declared?, parsed] using this

end CrossAssembler.Section
