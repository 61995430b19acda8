import CrossAssembler.Proofs.Assembly.Lockstep
import CrossAssembler.Proofs.Source.Extent

namespace CrossAssembler

open Outcome Section Text

variable {R : Nat → Nat → Prop} {bus : Bus} {labels labels' : Labels}

namespace Source

variable {ls ls' : List SourceLine}

theorem textOf_eq (h : List.Forall₂ (SourceLine.Alike R) ls ls') : textOf ls = textOf ls' := by
  induction h with
  | nil => rfl
  | cons head _ ih => rw [textOf_cons, textOf_cons, head.text, ih]

theorem numberAt_alike (h : List.Forall₂ (SourceLine.Alike R) ls ls') (hne : ls ≠ []) (pos : Nat) :
    R (numberAt ls pos) (numberAt ls' pos) := by
  induction h generalizing pos with
  | nil => exact absurd rfl hne
  | @cons l l' ls ls' head tail ih =>
      rcases Nat.lt_or_ge l.text.length pos with hlt | hle
      · cases tail with
        | nil => exact head.number
        | @cons m m' ms ms' next rest =>
            have hstep : numberAt (l :: m :: ms) pos =
                numberAt (m :: ms) (pos - (l.text.length + 1)) :=
              numberAt_cons_of_lt (by simp) hlt
            have hstep' : numberAt (l' :: m' :: ms') pos =
                numberAt (m' :: ms') (pos - (l'.text.length + 1)) :=
              numberAt_cons_of_lt (by simp) (head.text ▸ hlt)
            rw [hstep, hstep', head.text]
            exact ih (by simp) _
      · rw [numberAt_cons_of_le _ hle, numberAt_cons_of_le _ (head.text ▸ hle)]
        exact head.number

theorem piecesIn_alike (h : List.Forall₂ (SourceLine.Alike R) ls ls') (start stop : Nat) :
    List.Forall₂ (SourceLine.Alike R) (piecesIn ls start stop) (piecesIn ls' start stop) := by
  induction h generalizing start stop with
  | nil => exact .nil
  | cons head _ ih =>
      rw [piecesIn, piecesIn, head.text]
      split
      · exact ih _ _
      · exact .cons ⟨head.number, rfl⟩ (ih _ _)

theorem slice_eq (h : List.Forall₂ (SourceLine.Alike R) ls ls') : slice ⟨ls⟩ = slice ⟨ls'⟩ := by
  funext span
  change ((textOf ls).take _).drop _ = ((textOf ls').take _).drop _
  rw [textOf_eq h]

theorem block?_eq (h : List.Forall₂ (SourceLine.Alike R) ls ls') : block? ⟨ls⟩ = block? ⟨ls'⟩ := by
  funext within d
  rw [block?, block?, slice_eq h]

theorem block_eq (h : List.Forall₂ (SourceLine.Alike R) ls ls') : block ⟨ls⟩ = block ⟨ls'⟩ := by
  funext within d
  rw [block, block, block?_eq h]

theorem headAndCode_eq (h : List.Forall₂ (SourceLine.Alike R) ls ls') :
    headAndCode ⟨ls⟩ = headAndCode ⟨ls'⟩ := by
  have hall : all ⟨ls⟩ = all ⟨ls'⟩ := by
    change Span.mk 0 (textOf ls).length = ⟨0, (textOf ls').length⟩
    rw [textOf_eq h]
  rw [headAndCode, headAndCode, block_eq h, hall]

theorem orgBlock_alike (h : List.Forall₂ (SourceLine.Alike R) ls ls') (code : Span) (pos : Nat) :
    Alike Eq (OrgBlock.Alike R Eq) (orgBlock ⟨ls⟩ code pos) (orgBlock ⟨ls'⟩ code pos) := by
  unfold orgBlock
  rw [slice_eq h]
  dsimp only
  split
  · exact .error rfl
  · split
    · exact .error rfl
    · rename_i len hlen
      refine .ok ⟨rfl, numberAt_alike h ?_ _, rfl⟩
      rintro rfl
      cases h
      have hclosing : Directive.org.closing ≠ [] := by decide
      have hpre := ((find?_eq_some_iff hclosing).mp hlen).1
      simp only [slice, text, List.flatMap_nil, List.take_nil, List.drop_nil,
        List.prefix_nil] at hpre
      exact hclosing hpre

theorem codeBlocks_alike_of {src src' : Source} {code : Span} (hblock : src.block = src'.block)
    (hblock? : src.block? = src'.block?)
    (hopenings : occurrences Directive.org.opening (src.slice code) =
      occurrences Directive.org.opening (src'.slice code))
    (horg : ∀ pos ∈ occurrences Directive.org.opening (src.slice code),
      Alike Eq (OrgBlock.Alike R Eq) (src.orgBlock code pos) (src'.orgBlock code pos)) :
    Alike Eq (CodeBlocks.Alike R Eq) (src.codeBlocks code) (src'.codeBlocks code) := by
  unfold codeBlocks
  rw [hblock, hblock?, ← hopenings]
  refine .bind (.refl _) ?_
  rintro main _ rfl
  refine .bind (.refl _) ?_
  rintro interrupt _ rfl
  have horgs : Alike Eq (List.Forall₂ (OrgBlock.Alike R Eq))
      ((occurrences Directive.org.opening (src.slice code)).mapM (src.orgBlock code))
      ((occurrences Directive.org.opening (src.slice code)).mapM (src'.orgBlock code)) := by
    have hsame : List.Forall₂ (fun pos pos' => pos = pos' ∧
        Alike Eq (OrgBlock.Alike R Eq) (src.orgBlock code pos) (src'.orgBlock code pos))
        (occurrences Directive.org.opening (src.slice code))
        (occurrences Directive.org.opening (src.slice code)) :=
      List.forall₂_same.mpr fun pos hpos => ⟨rfl, horg pos hpos⟩
    refine .mapM hsame ?_
    rintro pos _ ⟨rfl, hpos⟩
    exact hpos
  refine horgs.bind fun orgs orgs' horgs => .ok ⟨rfl, ?_, horgs⟩
  cases interrupt with
  | none => exact .none
  | some body => exact .some rfl

theorem program_alike_of {src src' : Source} (hsplit : src.headAndCode = src'.headAndCode)
    (hblocks : ∀ code, Alike Eq (CodeBlocks.Alike R Eq) (src.codeBlocks code) (src'.codeBlocks code))
    (hlines : ∀ body ∈ src.bodies,
      List.Forall₂ (SourceLine.Alike R) (src.linesIn body) (src'.linesIn body)) :
    Alike Eq (fun x y => List.Forall₂ (SourceLine.Alike R) x.1 y.1 ∧
      CodeBlocks.Alike R (List.Forall₂ (SourceLine.Alike R)) x.2 y.2) src.program src'.program := by
  unfold program
  rw [← hsplit]
  cases hhead : src.headAndCode with
  | error f => exact .error rfl
  | ok spans =>
      obtain ⟨head, code⟩ := spans
      have hcode := hblocks code
      simp only [ok_bind]
      generalize hx : src.codeBlocks code = x at hcode ⊢
      generalize src'.codeBlocks code = y at hcode ⊢
      cases hcode with
      | error he => exact .error he
      | @ok blocks blocks' hsame =>
          rw [bodies_eq hhead hx] at hlines
          obtain ⟨main, interrupt, orgs⟩ := blocks
          obtain ⟨main', interrupt', orgs'⟩ := blocks'
          obtain ⟨rfl, hinterrupt, horgs⟩ := hsame
          refine .ok ⟨hlines head (by simp), hlines main (by simp [CodeBlocks.parts]), ?_, ?_⟩
          · cases hinterrupt with
            | none => exact .none
            | some hbody => exact .some (hbody ▸ hlines _ (by simp [CodeBlocks.parts]))
          · simp only [CodeBlocks.map, List.forall₂_map_left_iff, List.forall₂_map_right_iff]
            have hbody : ∀ b ∈ orgs, List.Forall₂ (SourceLine.Alike R) (src.linesIn b.body)
                (src'.linesIn b.body) := by
              intro b hb
              apply hlines
              simp only [CodeBlocks.parts, List.map_cons, List.map_append, List.map_map,
                List.mem_cons, List.mem_append, List.mem_map]
              exact .inr (.inr (.inr ⟨b, hb, rfl⟩))
            refine ((List.forall₂_and_left _ _).mpr ⟨hbody, horgs⟩).imp ?_
            rintro b b' ⟨hb, hsame⟩
            refine ⟨hsame.location, hsame.line, ?_⟩
            simp only [OrgBlock.map, ← hsame.body]
            exact hb

theorem codeBlocks_alike (h : List.Forall₂ (SourceLine.Alike R) ls ls') (code : Span) :
    Alike Eq (CodeBlocks.Alike R Eq) (codeBlocks ⟨ls⟩ code) (codeBlocks ⟨ls'⟩ code) :=
  codeBlocks_alike_of (block_eq h) (block?_eq h) (by rw [slice_eq h]) fun pos _ =>
    orgBlock_alike h code pos

theorem program_alike (h : List.Forall₂ (SourceLine.Alike R) ls ls') :
    Alike Eq (fun x y => List.Forall₂ (SourceLine.Alike R) x.1 y.1 ∧
      CodeBlocks.Alike R (List.Forall₂ (SourceLine.Alike R)) x.2 y.2)
        (program ⟨ls⟩) (program ⟨ls'⟩) :=
  program_alike_of (headAndCode_eq h) (codeBlocks_alike h) fun body _ =>
    piecesIn_alike h body.start body.stop

end Source

theorem Constants.collect_alike {lines lines' : List SourceLine}
    (hlines : List.Forall₂ (SourceLine.Alike R) lines lines')
    (hlabels : Labels.Alike R labels labels') :
    Traced.AlikeOn R (Labels.Alike R) (collect labels lines) (collect labels' lines') := by
  induction hlines generalizing labels labels' with
  | nil => exact .pure hlabels
  | @cons line line' lines lines' head _ ih =>
      rw [collect, collect, head.text]
      split
      · exact ih hlabels
      · rename_i name value _
        refine .bind (.ofExcept (.onLine _ _ head.number)) ?_
        rintro literal _ rfl
        have hdefined : Labels.Alike R (labels.define name line.number literal).1
            (labels'.define name line'.number literal).1 :=
          ⟨hlabels.consts.put name ⟨head.number, rfl⟩, hlabels.codes⟩
        have hprevious := hlabels.consts.get? name
        simp only [Labels.define] at hdefined ⊢
        generalize labels.consts.get? name = previous at *
        generalize labels'.consts.get? name = previous' at *
        cases hprevious with
        | none => exact ih hdefined
        | some hold =>
            refine .bind (.tell (.overridden head.number hold.line)) fun _ _ _ => ?_
            exact ih hdefined

theorem Section.encodeLine_alike {site : Site} (hlabels : Labels.Alike R labels labels')
    (offset : Nat) {line line' : SourceLine} (hline : line.Lockstep R Eq line') :
    Traced.InLockstep R (Event.Alike R) Eq
      (fun x y => Labels.Alike R x.1 y.1 ∧ List.Forall₂ Eq x.2 y.2)
      (encodeLine bus site labels offset line) (encodeLine bus site labels' offset line') := by
  simp only [List.forall₂_eq_eq_eq]
  unfold encodeLine
  rw [hline.text]
  refine Traced.Alike.mapError (F := Eq) ?_ ?_
  · refine .bind (.ofExcept (.refl _)) ?_
    rintro statement _ rfl
    cases statement with
    | label name =>
        refine .bind (.ofExcept (.refl _)) fun _ _ _ => ?_
        dsimp only
        split
        · exact .ofExcept (.error rfl)
        · refine (hlabels.bind name hline.number site.kind _).bind fun _ _ h => ?_
          exact .pure ⟨h, rfl⟩
    | instruction mnemonic param =>
        dsimp only
        rw [hlabels.encode_eq bus]
        refine .bind (.ofExcept (.refl _)) ?_
        rintro words _ rfl
        split
        · exact .ofExcept (.error rfl)
        · exact .pure ⟨hlabels, rfl⟩
  · rintro f _ rfl
    exact .onLine rfl _ hline.number

theorem lockstep_alike (bus : Bus) (R : Nat → Nat → Prop) :
    Lockstep bus R Eq Eq (Labels.Alike R) (Event.Alike R) Eq where
  fault _ := rfl
  event := .same
  codes hlabels := hlabels.codes.length_eq
  line hlabels hline _ offset := Section.encodeLine_alike hlabels offset hline
  word {labels labels' w w'} hlabels hword := by
    subst hword
    rw [hlabels.resolve_eq]
    exact .refl _

theorem Assembly.Lockstep.alike {a a' : Assembly} (h : a.Lockstep R Eq Eq (Labels.Alike R) a') :
    Assembly.Alike R a a' := by
  refine ⟨h.image, h.sections.imp fun s s' hs => ⟨hs.kind, hs.base, ?_, ?_⟩, h.labels⟩
  · exact List.forall₂_eq_eq_eq ▸ hs.words
  · exact hs.rows.imp fun r r' hr => ⟨hr.line, hr.offset, hr.size, hr.code⟩

theorem CodeBlocks.Alike.lockstep {p p' : Program}
    (h : CodeBlocks.Alike R (List.Forall₂ (SourceLine.Alike R)) p p') :
    CodeBlocks.Alike R (List.Forall₂ (SourceLine.Lockstep R Eq)) p p' := by
  have hbody : ∀ {ls ls' : List SourceLine}, List.Forall₂ (SourceLine.Alike R) ls ls' →
      List.Forall₂ (SourceLine.Lockstep R Eq) ls ls' :=
    fun h => h.imp fun _ _ hl => ⟨hl.number, hl.text⟩
  obtain ⟨main, interrupt, orgs⟩ := p
  obtain ⟨main', interrupt', orgs'⟩ := p'
  obtain ⟨hmain, hinterrupt, horgs⟩ := h
  refine ⟨hbody hmain, ?_, horgs.imp fun b b' hb => ⟨hb.location, hb.line, hbody hb.body⟩⟩
  cases hinterrupt with
  | none => exact .none
  | some h => exact .some (hbody h)

theorem Program.build_alike {pad : Bool} {p p' : Program}
    (hp : CodeBlocks.Alike R (List.Forall₂ (SourceLine.Alike R)) p p')
    (hlabels : Labels.Alike R labels labels') :
    Traced.AlikeOn R (Assembly.Alike R) (p.build bus pad labels) (p'.build bus pad labels') := by
  have h := @Lockstep.build _ _ _ _ _ _ _ labels labels' (lockstep_alike bus R) pad p p' hp.lockstep
    hlabels
  exact ⟨h.log, h.result.imp (fun _ _ he => ⟨he.fault, he.place⟩) fun _ _ ha => ha.alike⟩

end CrossAssembler
