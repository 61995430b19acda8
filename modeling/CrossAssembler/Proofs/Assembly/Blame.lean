import CrossAssembler.Proofs.Assembly.Bodies
import CrossAssembler.Proofs.Assembly.Faults
import CrossAssembler.Proofs.Source.Normalization

namespace CrossAssembler

open Outcome Section Sequence Text

variable {bus : Bus} {pad : Bool} {raw : Text} {labels constants : Labels} {e : Error}

namespace Section

variable {site : Site}

theorem exists_of_encodeLine_eq_error {offset : Nat} {line : SourceLine}
    (h : (encodeLine bus site labels offset line).result = .error e) :
    ∃ f : Fault, f.isLocal = true ∧ e = f.onLine (.code site.kind) line.number := by
  simp only [encodeLine, Traced.result_mapError, mapError_eq_error] at h
  obtain ⟨f, hf, rfl⟩ := h
  refine ⟨f, ?_, rfl⟩
  revert hf f
  simp only [Traced.result_bind, Traced.result_ofExcept]
  refine FailsIn.bind (Local.parse _) fun statement => ?_
  cases statement with
  | label name =>
      simp only [Traced.result_bind, Traced.result_ofExcept]
      refine .bind (Local.checkName name) fun _ => ?_
      split
      · exact .error rfl
      · simp only [Traced.result_bind, Traced.result_pure]
        exact .bind (Local.bind _ _ _ _) fun _ => .ok _
  | instruction m param =>
      simp only [Traced.result_bind, Traced.result_ofExcept]
      refine .bind (Local.encode m param) fun words => ?_
      split
      · exact .error rfl
      · exact .ok _

theorem exists_of_encodeLines_eq_error {offset : Nat} {lines : List SourceLine}
    (h : (encodeLines bus site labels offset lines).result = .error e) :
    ∃ before line after labels' words rows, lines = before ++ line :: after ∧
      (encodeLines bus site labels offset before).result = .ok (labels', words, rows) ∧
      (encodeLine bus site labels' (offset + words.length) line).result = .error e := by
  induction lines generalizing labels offset with
  | nil => simp [encodeLines] at h
  | cons line lines ih =>
      simp only [encodeLines, Traced.result_bind, bind_eq_error, Prod.exists, Traced.result_pure,
        reduceCtorEq, and_false, exists_false, or_false] at h
      rcases h with hline | ⟨labels₁, ws, hline, hlines⟩
      · exact ⟨[], line, lines, labels, [], [], rfl, rfl, hline⟩
      · obtain ⟨before, line', after, labels', words, rows, rfl, hbefore, hfail⟩ := ih hlines
        refine ⟨line :: before, line', after, labels', ws ++ words,
          ⟨line.number, offset, ws.length, line.text⟩ :: rows, rfl, ?_, ?_⟩
        · simp [encodeLines, hline, hbefore]
        · rwa [List.length_append, ← Nat.add_assoc]

theorem exists_of_encode_eq_error {body : List SourceLine}
    (h : (encode bus site labels body).result = .error e) :
    ∃ before line after labels' words rows, body = before ++ line :: after ∧
      (encodeLines bus site labels 0 before).result = .ok (labels', words, rows) ∧
      (encodeLine bus site labels' words.length line).result = .error e := by
  simp only [encode, Traced.result_bind, bind_eq_error, Traced.result_tell, Traced.result_pure,
    reduceCtorEq, and_false, exists_false, or_false] at h
  simpa only [Nat.zero_add] using exists_of_encodeLines_eq_error h

end Section

theorem Constants.exists_of_collect_eq_error {lines : List SourceLine}
    (h : (collect labels lines).result = .error e) :
    ∃ before line after labels' name value f, lines = before ++ line :: after ∧
      (collect labels before).result = .ok labels' ∧
      assignment? line.text = some (name, value) ∧ check name value = .error f ∧
      e = f.onLine .head line.number := by
  induction lines generalizing labels with
  | nil => simp [collect] at h
  | cons line lines ih =>
      have hcons := result_collect_cons labels line
      rw [hcons] at h
      cases hassign : assignment? line.text with
      | none =>
          simp only [hassign] at h hcons
          obtain ⟨before, line', after, labels', name, value, f, rfl, hbefore, hfail⟩ := ih h
          exact ⟨line :: before, line', after, labels', name, value, f, rfl,
            (hcons before).trans hbefore, hfail⟩
      | some entry =>
          obtain ⟨name, value⟩ := entry
          simp only [hassign, bind_eq_error, mapError_eq_error, mapError_eq_ok] at h hcons
          rcases h with ⟨f, hcheck, rfl⟩ | ⟨l, hcheck, h⟩
          · exact ⟨[], line, lines, labels, name, value, f, rfl, rfl, hassign, hcheck, rfl⟩
          · obtain ⟨before, line', after, labels', name', value', f, rfl, hbefore, hfail⟩ := ih h
            refine ⟨line :: before, line', after, labels', name', value', f, rfl, ?_, hfail⟩
            rw [hcons, hcheck]
            exact hbefore

namespace Program

inductive Reaches (bus : Bus) (constants : Labels) (p : Program) :
    Labels → Site → List SourceLine → Prop
  | main : Reaches bus constants p constants mainSite p.main
  | interrupt {body : List SourceLine} {labels : Labels} {sections : List Section}
      (block : p.interrupt = some body)
      (encoded : (encode bus constants { p with interrupt := none, orgs := [] }).result =
        .ok (labels, sections)) :
      Reaches bus constants p labels interruptSite body
  | org {before after : List (OrgBlock (List SourceLine))} {org : OrgBlock (List SourceLine)}
      {labels : Labels} {sections : List Section} {base : Nat}
      (blocks : p.orgs = before ++ org :: after)
      (encoded : (encode bus constants { p with orgs := before }).result = .ok (labels, sections))
      (located : orgBase org.location bus = .ok base) :
      Reaches bus constants p labels ⟨.org org.location, base, bus.space - 1⟩ org.body

theorem Reaches.mem_parts {p : Program} {site : Site} {body : List SourceLine}
    (h : p.Reaches bus constants labels site body) : (site.kind, body) ∈ p.parts := by
  cases h with
  | main => simp [CodeBlocks.parts, mainSite]
  | interrupt block => simp [CodeBlocks.parts, interruptSite, block]
  | org blocks => simp [CodeBlocks.parts, blocks]

theorem result_encode_eq_bind (p : Program) :
    (p.encode bus labels).result =
      (encode bus labels { p with orgs := [] }).result >>= fun x =>
        (encodeOrgs bus x.1 p.orgs).result >>= fun y => .ok (y.1, x.2 ++ y.2) := by
  obtain ⟨main, interrupt, orgs⟩ := p
  cases interrupt with
  | none => simp [encode, encodeOrgs]
  | some body => simp [encode, encodeOrgs]

theorem exists_of_encodeOrgs_eq_error {orgs : List (OrgBlock (List SourceLine))}
    (h : (encodeOrgs bus labels orgs).result = .error e) :
    ∃ before org after labels' sections, orgs = before ++ org :: after ∧
      (encodeOrgs bus labels before).result = .ok (labels', sections) ∧
      ((∃ f, orgBase org.location bus = .error f ∧
        e = f.onLine (.code (.org org.location)) org.line) ∨
      ∃ base, orgBase org.location bus = .ok base ∧
        (Section.encode bus ⟨.org org.location, base, bus.space - 1⟩ labels' org.body).result =
          .error e) := by
  induction orgs generalizing labels with
  | nil => simp [encodeOrgs] at h
  | cons org orgs ih =>
      simp only [encodeOrgs, Traced.result_bind, Traced.result_ofExcept, bind_eq_error,
        mapError_eq_error, mapError_eq_ok, Traced.result_pure, reduceCtorEq, and_false,
        exists_false, or_false, Prod.exists] at h
      rcases h with hbase | ⟨base, hbase, hbody | ⟨labels₁, s, hbody, horgs⟩⟩
      · exact ⟨[], org, orgs, labels, [], rfl, rfl, .inl hbase⟩
      · exact ⟨[], org, orgs, labels, [], rfl, rfl, .inr ⟨base, hbase, hbody⟩⟩
      · obtain ⟨before, org', after, labels', sections, rfl, hbefore, hfail⟩ := ih horgs
        refine ⟨org :: before, org', after, labels', s :: sections, rfl, ?_, hfail⟩
        simp [encodeOrgs, hbase, hbody, hbefore, Except.mapError]

theorem exists_of_encode_eq_error {p : Program}
    (h : (p.encode bus constants).result = .error e) :
    (∃ labels site body, p.Reaches bus constants labels site body ∧
      (Section.encode bus site labels body).result = .error e) ∨
    ∃ before org after labels sections f, p.orgs = before ++ org :: after ∧
      (encode bus constants { p with orgs := before }).result = .ok (labels, sections) ∧
      orgBase org.location bus = .error f ∧ e = f.onLine (.code (.org org.location)) org.line := by
  rw [result_encode_eq_bind, bind_eq_error] at h
  rcases h with hfixed | ⟨⟨labels₁, fixed⟩, hfixed, horgs⟩
  · left
    obtain ⟨main, interrupt, orgs⟩ := p
    cases interrupt with
    | none =>
        simp [encode, encodeOrgs, bind_eq_error] at hfixed
        exact ⟨constants, mainSite, main, .main, hfixed⟩
    | some body =>
        simp only [encode, encodeOrgs, Traced.result_bind, bind_eq_error, Traced.result_pure,
          Prod.exists, reduceCtorEq, and_false, exists_false, or_false] at hfixed
        rcases hfixed with hmain | ⟨labels₁, s, hmain, hbody⟩
        · exact ⟨constants, mainSite, main, .main, hmain⟩
        · have hencoded : (encode bus constants ⟨main, none, []⟩).result = .ok (labels₁, [s]) := by
            simp [encode, encodeOrgs, hmain]
          exact ⟨labels₁, interruptSite, body, .interrupt rfl hencoded, hbody⟩
  · simp only [bind_eq_error, reduceCtorEq, and_false, exists_false, or_false] at horgs
    obtain ⟨before, org, after, labels', sections, hsplit, hbefore, hfail⟩ :=
      exists_of_encodeOrgs_eq_error horgs
    have hencoded : (encode bus constants { p with orgs := before }).result =
        .ok (labels', fixed ++ sections) := by
      rw [result_encode_eq_bind]
      simp [hfixed, hbefore]
    rcases hfail with ⟨f, hbase, rfl⟩ | ⟨base, hbase, hbody⟩
    · exact .inr ⟨before, org, after, labels', _, f, hsplit, hencoded, hbase, rfl⟩
    · exact .inl ⟨labels', _, _, .org hsplit hencoded hbase, hbody⟩

end Program

inductive Blamed (bus : Bus) (raw : Text) : Error → Text → Prop
  | assignment {head before after : List SourceLine} {program : Program} {line : SourceLine}
      {labels : Labels} {name value : Text} {f : Fault}
      (split : (Source.normalize raw).program = .ok (head, program))
      (reached : head = before ++ line :: after)
      (collected : (Constants.collect .empty before).result = .ok labels)
      (assigns : Constants.assignment? line.text = some (name, value))
      (failed : Constants.check name value = .error f) :
      Blamed bus raw (f.onLine .head line.number) line.text
  | location {head code : Span} {blocks : CodeBlocks Span} {before after : List (OrgBlock Span)}
      {b : OrgBlock Span} {pos : Nat} {constants labels : Labels} {sections : List Section}
      {f : Fault} (split : (Source.normalize raw).headAndCode = .ok (head, code))
      (found : (Source.normalize raw).codeBlocks code = .ok blocks)
      (reached : blocks.orgs = before ++ b :: after)
      (opened : (Source.normalize raw).OrgReads code.stop pos b)
      (collected : (Constants.collect .empty ((Source.normalize raw).linesIn head)).result =
        .ok constants)
      (encoded : (Program.encode bus constants
        ({ blocks with orgs := before }.map (Source.normalize raw).linesIn)).result =
          .ok (labels, sections))
      (failed : orgBase b.location bus = .error f) :
      Blamed bus raw (f.onLine (.code (.org b.location)) b.line)
        ((Source.normalize raw).slice ⟨pos, b.body.start⟩)
  | line {head before after : List SourceLine} {program : Program} {line : SourceLine}
      {constants labels labels' : Labels} {site : Site} {words : List Word} {rows : List Row}
      {e : Error} (split : (Source.normalize raw).program = .ok (head, program))
      (collected : (Constants.collect .empty head).result = .ok constants)
      (reached : program.Reaches bus constants labels site (before ++ line :: after))
      (encoded : (encodeLines bus site labels 0 before).result = .ok (labels', words, rows))
      (failed : (encodeLine bus site labels' words.length line).result = .error e) :
      Blamed bus raw e line.text
  | reference {head : List SourceLine} {program : Program} {constants labels : Labels}
      {sections : List Section} {s : Section} {r : Row} {k : Nat} {name : Text} {half : Half}
      (split : (Source.normalize raw).program = .ok (head, program))
      (collected : (Constants.collect .empty head).result = .ok constants)
      (encoded : (program.encode bus constants).result = .ok (labels, sections))
      (valid : Layout.validate sections = .ok ()) (placed : s ∈ sections) (listed : r ∈ s.rows)
      (covers : r.covers k = true) (word : s.words[k]? = some (.label name half))
      (unbound : labels.address? name = none) :
      Blamed bus raw ((Fault.undefinedLabel name).onLine (.code s.kind) r.line) r.code

namespace Source

theorem exists_raw_line {l : SourceLine} (h : l ∈ (normalize raw).lines) {u : Text}
    (hu : u <:+: l.text) : 1 ≤ l.number ∧
      ∃ line, raw.lines[l.number - 1]? = some line ∧ u <:+: upper (uncomment line) := by
  obtain ⟨hpos, line, hget, hcode⟩ := exists_of_mem_significant h
  exact ⟨hpos, line, hget, hu.trans (infix_of_significant? hcode)⟩

theorem exists_line_of_program {src : Source} {head : List SourceLine} {p : Program}
    (h : src.program = .ok (head, p)) {lines : List SourceLine}
    (hlines : lines = head ∨ ∃ kind, (kind, lines) ∈ p.parts) {line : SourceLine}
    (hline : line ∈ lines) : ∃ l ∈ src.lines, l.number = line.number ∧ line.text <:+: l.text := by
  simp only [program, bind_eq_ok, pure_eq_ok, Prod.exists, Prod.mk.injEq] at h
  obtain ⟨span, code, -, blocks, -, rfl, rfl⟩ := h
  rcases hlines with rfl | ⟨kind, hpart⟩
  · exact exists_line_of_mem_piecesIn hline
  · rw [CodeBlocks.parts_map, List.mem_map] at hpart
    obtain ⟨x, -, hx⟩ := hpart
    obtain ⟨-, rfl⟩ := Prod.mk.inj hx
    exact exists_line_of_mem_piecesIn hline

theorem OrgReads.exists_line {src : Source} {stop pos : Nat} {b : OrgBlock Span}
    (h : src.OrgReads stop pos b) :
    ∃ l ∈ src.lines, l.number = b.line ∧ src.slice ⟨pos, b.body.start⟩ <:+: l.text := by
  obtain ⟨gap, htight, hline, hreads, hlength, -⟩ := h.exists_gap
  obtain ⟨l, hl, hnumber, hcode⟩ := exists_line_of_prefix htight.ne_nil hline hreads
  refine ⟨l, hl, hnumber.trans h.line.symm, ?_⟩
  rw [slice, List.drop_take, ← hlength, Nat.add_sub_cancel_left,
    ← List.prefix_iff_eq_take.mp hreads]
  exact hcode

end Source

theorem Program.exists_part_of_encode {p : Program} {sections : List Section} {s : Section}
    (h : (p.encode bus constants).result = .ok (labels, sections)) (hs : s ∈ sections) :
    s.part ∈ p.parts := by
  obtain ⟨sites, hplaced, hencode⟩ := Program.encode_eq_ok_iff.mp h
  rw [← hplaced.map_part, ← hencode.map_part]
  exact List.mem_map_of_mem hs

theorem Program.listed_of_encode {p : Program} {sections : List Section} {s : Section}
    (h : (p.encode bus constants).result = .ok (labels, sections)) (hs : s ∈ sections) :
    Listed bus labels 0 s.rows s.words := by
  obtain ⟨sites, -, hencode⟩ := Program.encode_eq_ok_iff.mp h
  exact hencode.listed hencode.consts_eq.symm hs

namespace Blamed

variable {code : Text}

theorem exists_place (h : Blamed bus raw e code) :
    ∃ (f : Fault) (region : Region) (n : Nat), e = f.onLine region n ∧ f.isGlobal = false ∧
      ∃ l ∈ (Source.normalize raw).lines, l.number = n ∧ code <:+: l.text := by
  cases h with
  | assignment split reached _ _ failed =>
      refine ⟨_, _, _, rfl, Fault.isGlobal_eq_false_of_isLocal (Local.check _ _ _ failed), ?_⟩
      exact Source.exists_line_of_program split (.inl rfl) (by simp [reached])
  | location _ _ _ opened _ _ failed =>
      refine ⟨_, _, _, rfl, Fault.isGlobal_eq_false_of_isLocal (Local.orgBase _ _ _ failed), ?_⟩
      exact opened.exists_line
  | line split _ reached _ failed =>
      obtain ⟨f, hf, rfl⟩ := exists_of_encodeLine_eq_error failed
      refine ⟨_, _, _, rfl, Fault.isGlobal_eq_false_of_isLocal hf, ?_⟩
      exact Source.exists_line_of_program split (.inr ⟨_, reached.mem_parts⟩) (by simp)
  | reference split _ encoded _ placed listed =>
      refine ⟨_, _, _, rfl, rfl, ?_⟩
      exact Source.exists_line_of_program split
        (.inr ⟨_, Program.exists_part_of_encode encoded placed⟩) (List.mem_map_of_mem listed)

theorem exists_operand {name : Text} (h : Blamed bus raw e code)
    (hname : e.fault = .undefinedLabel name) :
    ∃ m, Statement.parse code = .ok (.instruction m name) := by
  cases h with
  | assignment _ _ _ _ failed =>
      exact absurd hname (Fault.ne_undefinedLabel_of_isLocal (Local.check _ _ _ failed) name)
  | location _ _ _ _ _ _ failed =>
      exact absurd hname (Fault.ne_undefinedLabel_of_isLocal (Local.orgBase _ _ _ failed) name)
  | line _ _ _ _ failed =>
      obtain ⟨f, hf, rfl⟩ := exists_of_encodeLine_eq_error failed
      exact absurd hname (Fault.ne_undefinedLabel_of_isLocal hf name)
  | @reference _ _ _ _ _ s r k label half _ _ encoded _ placed listed covers word =>
      obtain rfl : label = name := Fault.undefinedLabel.inj hname
      obtain ⟨ws, hws, hsize, -, hget⟩ :=
        (Program.listed_of_encode encoded placed).getElem?_words listed
      rw [Row.covers_iff] at covers
      have hword : ws[k - r.offset]? = some (.label label half) := by
        rw [← hget _ (by omega), Nat.sub_zero, Nat.add_sub_cancel' covers.1]
        exact word
      obtain ⟨⟨m, hparse, -⟩, -⟩ := Row.refersTo_of_getElem? hws hword
      exact ⟨m, hparse⟩

end Blamed

theorem Image.exists_of_link_eq_error {sections : List Section}
    (hlisted : ∀ s ∈ sections, Listed bus labels 0 s.rows s.words)
    (h : (link bus labels pad sections).result = .error e) :
    (∃ words, e = (Fault.imageTooLarge words maxWords).bare) ∨
      ∃ s ∈ sections, ∃ r ∈ s.rows, ∃ (k : Nat) (name : Text) (half : Half), r.covers k = true ∧
        s.words[k]? = some (.label name half) ∧ labels.address? name = none ∧
        e = (Fault.undefinedLabel name).onLine (.code s.kind) r.line := by
  rw [result_link] at h
  split at h
  · exact .inl ⟨_, (Except.error.inj h).symm⟩
  · right
    obtain ⟨addr, -, hvalue⟩ := exists_of_mapM_eq_error (map_eq_error.mp h)
    unfold valueAt at hvalue
    cases howner : owner? (byBase sections) addr with
    | none => simp [howner] at hvalue
    | some s =>
        have hs : s ∈ sections := by
          have hmem := (List.mem_filter.mp (List.mem_of_getLast? howner)).1
          exact List.mem_mergeSort.mp hmem
        simp only [howner, cell_eq_error_iff] at hvalue
        obtain ⟨name, half, hword, haddr, rfl⟩ := hvalue
        obtain ⟨hlt, -⟩ := List.getElem?_eq_some_iff.mp hword
        obtain ⟨r, hr, hle, hr'⟩ := (hlisted s hs).exists_row hlt
        have hcovers : ∃ r ∈ s.rows, r.covers (addr - s.base) = true := by
          refine ⟨r, hr, Row.covers_iff.mpr ?_⟩
          omega
        obtain ⟨r, hfind⟩ := Option.isSome_iff_exists.mp (List.find?_isSome.mpr hcovers)
        have hfound : r.covers (addr - s.base) = true := by simpa using List.find?_some hfind
        refine ⟨s, hs, r, List.mem_of_find?_eq_some hfind, _, name, half, hfound, hword, haddr, ?_⟩
        simp [lineAt?, hfind, Fault.onLine]

theorem exists_blamed (h : (assemble bus pad raw).result = .error e) :
    (∃ f : Fault, e = f.bare ∧ f.isGlobal = true) ∨ ∃ code, Blamed bus raw e code := by
  simp only [assemble, Traced.result_bind, bind_eq_error, Traced.result_tell,
    Traced.result_ofExcept, mapError_eq_error, mapError_eq_ok, Prod.exists, reduceCtorEq, false_or,
    Program.build, Traced.result_pure, and_false, exists_false, or_false] at h
  rcases h with ⟨f, hsplit, rfl⟩ | ⟨head, program, hsplit, -, -, hcollect |
    ⟨constants, hcollect, -, -, hencode | ⟨labels, sections, hencode, -, -, ⟨f, hvalid, rfl⟩ |
      ⟨_, hvalid, hlink⟩⟩⟩⟩
  · exact .inl ⟨f, rfl, Global.program _ f hsplit⟩
  · obtain ⟨before, line, after, labels', name, value, f, hhead, hbefore, hassign, hcheck, rfl⟩ :=
      Constants.exists_of_collect_eq_error hcollect
    exact .inr ⟨_, .assignment hsplit hhead hbefore hassign hcheck⟩
  · right
    rcases Program.exists_of_encode_eq_error hencode with ⟨labels, site, body, hreach, hfail⟩ |
      ⟨before, org, after, labels, sections, f, horgs, hbefore, hbase, rfl⟩
    · obtain ⟨before, line, after, labels', words, rows, rfl, hbefore, hline⟩ :=
        Section.exists_of_encode_eq_error hfail
      exact ⟨_, .line hsplit hcollect hreach hbefore hline⟩
    · simp only [Source.program, bind_eq_ok, pure_eq_ok, Prod.exists, Prod.mk.injEq] at hsplit
      obtain ⟨headSpan, code, hspans, blocks, hblocks, rfl, rfl⟩ := hsplit
      obtain ⟨before', rest, horgs', rfl, hrest⟩ := List.map_eq_append_iff.mp horgs
      obtain ⟨b, after', rfl, rfl, rfl⟩ := List.map_eq_cons_iff.mp hrest
      have hb : b ∈ blocks.orgs := by simp [horgs']
      obtain ⟨pos, hopened⟩ := Source.exists_orgReads hblocks hb
      exact ⟨_, .location hspans hblocks horgs' hopened hcollect hbefore hbase⟩
  · exact .inl ⟨f, rfl, Global.validate _ f hvalid⟩
  · rcases Image.exists_of_link_eq_error
      (fun s hs => Program.listed_of_encode hencode hs) hlink with ⟨words, rfl⟩ |
        ⟨s, hs, r, hr, k, name, half, hcovers, hword, hunbound, rfl⟩
    · exact .inl ⟨_, rfl, rfl⟩
    · exact .inr ⟨_, .reference hsplit hcollect hencode hvalid hs hr hcovers hword hunbound⟩

theorem assemble_error_blames (h : (assemble bus pad raw).result = .error e) :
    (∃ f : Fault, e = f.bare ∧ f.isGlobal = true) ∨
      ∃ (f : Fault) (region : Region) (n : Nat) (line code : Text), e = f.onLine region n ∧
        f.isGlobal = false ∧ 1 ≤ n ∧ n ≤ raw.lines.length ∧ raw.lines[n - 1]? = some line ∧
        Blamed bus raw e code ∧ code <:+: upper (uncomment line) ∧
        ∀ name, f = .undefinedLabel name →
          ∃ m, Statement.parse code = .ok (.instruction m name) := by
  rcases exists_blamed h with hglobal | ⟨code, hblamed⟩
  · exact .inl hglobal
  · right
    obtain ⟨f, region, n, rfl, hlocal, l, hl, rfl, hcode⟩ := hblamed.exists_place
    obtain ⟨hpos, line, hline, hraw⟩ := Source.exists_raw_line hl hcode
    obtain ⟨hlt, -⟩ := List.getElem?_eq_some_iff.mp hline
    exact ⟨f, region, l.number, line, code, rfl, hlocal, hpos, by omega, hline, hblamed, hraw,
      fun name hname => hblamed.exists_operand hname⟩

def danglingSource : Text :=
  [".head", ".endhead", ".code", ".main", "NOP", "jmp nowhere // gone", ".endmain",
    ".endcode"].flatMap (·.toList ++ ['\n'])

theorem assemble_error_blames_danglingSource :
    (assemble sampleBus true danglingSource).result =
        .error ((Fault.undefinedLabel "NOWHERE".toList).onLine (.code .main) 6) ∧
      ∃ line code m, danglingSource.lines[5]? = some line ∧ code <:+: upper (uncomment line) ∧
        Statement.parse code = .ok (.instruction m "NOWHERE".toList) := by
  have h : (assemble sampleBus true danglingSource).result =
      .error ((Fault.undefinedLabel "NOWHERE".toList).onLine (.code .main) 6) := by decide +kernel
  refine ⟨h, ?_⟩
  rcases assemble_error_blames h with ⟨f, hbare, -⟩ |
    ⟨f, region, n, line, code, heq, -, -, -, hline, -, hcode, hoperand⟩
  · simp [Fault.onLine, Fault.bare] at hbare
  · obtain ⟨hf, -, rfl⟩ : f = .undefinedLabel "NOWHERE".toList ∧ region = .code .main ∧ n = 6 := by
      simpa [Fault.onLine, eq_comm] using heq
    obtain ⟨m, hm⟩ := hoperand _ hf
    exact ⟨line, code, m, hline, hcode, hm⟩

end CrossAssembler
