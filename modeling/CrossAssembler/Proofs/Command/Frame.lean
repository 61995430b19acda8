import CrossAssembler.Command.Run
import CrossAssembler.Proofs.Assembly.Run
import CrossAssembler.Proofs.File.Tree

namespace CrossAssembler

open Outcome

theorem Bus.eq_of_ofWidths {data address : Nat} {bus : Bus} (h : ofWidths data address = .ok bus) :
    bus.data = data ∧ bus.address = address := by
  unfold ofWidths at h
  split at h
  · split at h
    · split at h
      · obtain rfl := Except.ok.inj h
        exact ⟨rfl, rfl⟩
      · simp at h
    · simp at h
  · simp at h

theorem Settings.bus_eq_ok_iff {s : Settings} {bus : Bus} :
    s.bus = .ok bus ↔ s.data = some bus.data ∧ s.address = some bus.address := by
  obtain ⟨data, address, format, pad⟩ := s
  unfold Settings.bus
  constructor
  · intro h
    cases data with
    | none => simp at h
    | some data =>
        cases address with
        | none => simp at h
        | some address =>
            obtain ⟨rfl, rfl⟩ := Bus.eq_of_ofWidths (mapError_eq_ok.mp h)
            exact ⟨rfl, rfl⟩
  · rintro ⟨rfl, rfl⟩
    exact mapError_eq_ok.mpr bus.ofWidths_self

theorem Settings.requiredFormat_eq_ok_iff {s : Settings} {format : Format} :
    s.requiredFormat = .ok format ↔ s.format = some format := by
  unfold requiredFormat
  cases s.format <;> simp

namespace Command

variable {σ η ρ : Type} {files : Files (StateM σ) η} {regular : σ → ρ → Option (List UInt8)}
  {target? : σ → Text → Option (Files.Target ρ)} {reader : SettingsReader} {job : Job} {s t u : σ}
  {source : Text} {file settings : Settings} {bus : Bus} {format : Format} {a : Assembly}
  {outcome : Outcome}

theorem sourceOf_eq_ok_iff {path : String} {fetched : Fetched} :
    sourceOf path fetched = .ok source ↔
      ∃ bytes, fetched = .content bytes ∧ decode? bytes = some source := by
  cases fetched with
  | notOpened cause => simp [sourceOf]
  | notRead cause => simp [sourceOf]
  | content bytes => cases hdecode : decode? bytes <;> simp [sourceOf, hdecode]

theorem settingsOf_eq_ok_iff {path : String} {fetched : Fetched} :
    settingsOf reader path fetched = .ok file ↔
      ∃ bytes, fetched = .content bytes ∧ reader bytes = .ok file := by
  cases fetched with
  | notOpened cause => simp [settingsOf]
  | notRead cause => simp [settingsOf]
  | content bytes => simp [settingsOf, mapError_eq_ok]

namespace Job

def FileSettings (job : Job) (reader : SettingsReader) (files : Files (StateM σ) η) (s : σ)
    (file : Settings) (t : σ) : Prop :=
  match job.config with
  | none => file = {} ∧ t = s
  | some path => ∃ bytes, (files.fetch path.toList).run s = (.content bytes, t) ∧
      reader bytes = .ok file

structure Assembles (job : Job) (reader : SettingsReader) (files : Files (StateM σ) η) (s : σ)
    (source : Text) (file : Settings) (bus : Bus) (format : Format) (a : Assembly) (t : σ) :
    Prop where
  input : ∃ bytes u, (files.fetch job.input.toList).run s = (.content bytes, u) ∧
    decode? bytes = some source ∧ job.FileSettings reader files u file t
  data : job.flags.data.or file.data = some bus.data
  address : job.flags.address.or file.address = some bus.address
  format : job.flags.format.or file.format = some format
  assembled : (assemble bus (job.flags.pad || file.pad) source).result = .ok a

theorem settings_eq_ok_iff {config : Option Fetched}
    (h : (job.fetchConfig files).run s = (config, t)) :
    job.settings reader config = .ok settings ↔
      ∃ file, job.FileSettings reader files s file t ∧ settings = file.merge job.flags := by
  unfold Job.settings FileSettings
  unfold fetchConfig at h
  cases hpath : job.config with
  | none =>
      rw [hpath] at h
      obtain ⟨rfl, rfl⟩ := Prod.mk.inj h
      simp only [and_true, exists_eq_left]
      exact pure_eq_ok.trans eq_comm
  | some path =>
      rw [hpath] at h
      rcases hfetch : (files.fetch path.toList).run s with ⟨fetched, v⟩
      have hconfig : (some fetched, v) = (config, t) := by
        rw [← h, StateT.run_map, hfetch]
        rfl
      obtain ⟨rfl, rfl⟩ := Prod.mk.inj hconfig
      have hcontent : ∀ bytes, (files.fetch path.toList).run s = (.content bytes, v) ↔
          fetched = .content bytes := by
        intro bytes
        rw [hfetch]
        exact ⟨fun h => (Prod.mk.inj h).1, fun h => by rw [h]⟩
      simp only [bind_eq_ok, settingsOf_eq_ok_iff, pure_eq_ok, hcontent, @eq_comm _ settings]

theorem FileSettings.exists_config (h : job.FileSettings reader files s file t) :
    ∃ config, (job.fetchConfig files).run s = (config, t) := by
  unfold FileSettings at h
  unfold fetchConfig
  cases hpath : job.config with
  | none =>
      rw [hpath] at h
      exact ⟨none, by rw [h.2]; rfl⟩
  | some path =>
      rw [hpath] at h
      obtain ⟨bytes, hfetch, -⟩ := h
      exact ⟨some (.content bytes), by rw [StateT.run_map, hfetch]; rfl⟩

theorem prepare_eq_ok_iff {config : Option Fetched} {d : Delivery} :
    (job.prepare reader config source).result = .ok d ↔ ∃ settings bus format a,
      job.settings reader config = .ok settings ∧ settings.bus = .ok bus ∧
        settings.requiredFormat = .ok format ∧ (assemble bus settings.pad source).result = .ok a ∧
        d = { image := a.image, format, path := job.target format } := by
  simp only [prepare, say, Traced.result_bind, Traced.result_ofExcept, Traced.result_tell,
    Traced.result_mapError, Traced.result_mapLog, bind_eq_ok, mapError_eq_ok]
  constructor
  · rintro ⟨settings, hsettings, bus, hbus, format, hformat, -, -, -, -, a, ha, -, -, hd⟩
    refine ⟨settings, bus, format, a, hsettings, hbus, hformat, ha, ?_⟩
    split at hd <;> simpa [eq_comm] using hd
  · rintro ⟨settings, bus, format, a, hsettings, hbus, hformat, ha, rfl⟩
    refine ⟨settings, hsettings, bus, hbus, format, hformat, (), trivial, (), trivial, a, ha, (),
      trivial, ?_⟩
    split <;> simp

theorem fetchConfig_keeps (sound : files.Sound regular target?) {config : Option Fetched}
    (h : (job.fetchConfig files).run s = (config, t)) : regular t = regular s := by
  unfold fetchConfig at h
  split at h
  · obtain ⟨-, rfl⟩ := Prod.mk.inj h
    rfl
  · rename_i path hpath
    rcases hfetch : (files.fetch path.toList).run s with ⟨fetched, u⟩
    rw [StateT.run_map, hfetch] at h
    obtain ⟨-, rfl⟩ := Prod.mk.inj h
    exact sound.fetch_keeps hfetch

theorem run_cases (sound : files.Sound regular target?)
    (h : (job.runOn reader files).run s = (outcome, t)) :
    (outcome.exit = 1 ∧ regular t = regular s) ∨
      outcome.exit = 0 ∧ ∃ source file bus format a u,
        job.Assembles reader files s source file bus format a u ∧
        files.Writes (Path.withExtension job.output.toList format.name.toList)
          (a.image.render format) u t := by
  unfold runOn at h
  rcases hfetch : (files.fetch job.input.toList).run s with ⟨fetched, v⟩
  have hfetched := sound.fetch_keeps hfetch
  rw [run_bind_of_run_eq hfetch] at h
  split at h
  · obtain ⟨rfl, rfl⟩ := Prod.mk.inj h
    exact .inl ⟨rfl, hfetched⟩
  · rename_i source hsource
    rcases hconfig : (job.fetchConfig files).run v with ⟨config, u⟩
    have hconfigured := (fetchConfig_keeps sound hconfig).trans hfetched
    rw [run_bind_of_run_eq hconfig] at h
    dsimp only at h
    split at h
    · obtain ⟨rfl, rfl⟩ := Prod.mk.inj h
      exact .inl ⟨rfl, hconfigured⟩
    · rename_i d hprepare
      rcases hstore : (files.store d.path.toList d.bytes).run u with ⟨e | ⟨⟩, w⟩
      · rw [run_bind_of_run_eq hstore] at h
        obtain ⟨rfl, rfl⟩ := Prod.mk.inj h
        exact .inl ⟨rfl, (sound.store_error hstore).trans hconfigured⟩
      · rw [run_bind_of_run_eq hstore] at h
        obtain ⟨rfl, rfl⟩ := Prod.mk.inj h
        obtain ⟨settings, bus, format, a, hsettings, hbus, hformat, ha, rfl⟩ :=
          prepare_eq_ok_iff.mp hprepare
        obtain ⟨file, hfile, rfl⟩ := (settings_eq_ok_iff hconfig).mp hsettings
        obtain ⟨hdata, haddress⟩ := Settings.bus_eq_ok_iff.mp hbus
        obtain ⟨bytes, rfl, hdecode⟩ := sourceOf_eq_ok_iff.mp hsource
        refine .inr ⟨rfl, source, file, bus, format, a, u, ?_, ?_⟩
        · exact ⟨⟨bytes, v, hfetch, hdecode, hfile⟩, hdata, haddress,
            Settings.requiredFormat_eq_ok_iff.mp hformat, ha⟩
        · simpa [target, Delivery.bytes] using Files.store_eq_ok_iff.mp hstore

theorem FileSettings.keeps (sound : files.Sound regular target?)
    (h : job.FileSettings reader files s file t) : regular t = regular s := by
  obtain ⟨config, hconfig⟩ := h.exists_config
  exact fetchConfig_keeps sound hconfig

theorem Assembles.keeps (sound : files.Sound regular target?)
    (h : job.Assembles reader files s source file bus format a u) : regular u = regular s := by
  obtain ⟨bytes, v, hfetch, -, hfile⟩ := h.input
  rw [hfile.keeps sound, sound.fetch_keeps hfetch]

theorem Assembles.run_eq (h : job.Assembles reader files s source file bus format a u)
    (hwrites : files.Writes (Path.withExtension job.output.toList format.name.toList)
      (a.image.render format) u t) :
    ∃ outcome, (job.runOn reader files).run s = (outcome, t) ∧ outcome.exit = 0 := by
  have hstore := Files.store_eq_ok_iff.mpr hwrites
  obtain ⟨bytes, v, hfetch, hdecode, hfile⟩ := h.input
  obtain ⟨config, hconfig⟩ := hfile.exists_config
  have hsource : sourceOf job.input (.content bytes) = .ok source :=
    sourceOf_eq_ok_iff.mpr ⟨bytes, rfl, hdecode⟩
  have hprepare : (job.prepare reader config source).result =
      .ok { image := a.image, format, path := job.target format } :=
    prepare_eq_ok_iff.mpr ⟨file.merge job.flags, bus, format, a,
      (settings_eq_ok_iff hconfig).mpr ⟨file, hfile, rfl⟩,
      Settings.bus_eq_ok_iff.mpr ⟨h.data, h.address⟩,
      Settings.requiredFormat_eq_ok_iff.mpr h.format, h.assembled, rfl⟩
  unfold runOn
  simp only [run_bind_of_run_eq hfetch, hsource, run_bind_of_run_eq hconfig, hprepare, target,
    String.toList_ofList, Delivery.bytes, run_bind_of_run_eq hstore]
  exact ⟨_, rfl, rfl⟩

end Job

variable {parser : ArgumentParser} {args : List String} {level : Level}

theorem runOn_of_assemble (h : parser args = some ⟨.assemble job, level⟩)
    (files : Files (StateM σ) η) : runOn parser reader files args = job.runOn reader files := by
  unfold runOn
  rw [h]
  rfl

theorem state_eq_of_runOn (hparse : ∀ job level, parser args ≠ some ⟨.assemble job, level⟩)
    (h : (runOn parser reader files args).run s = (outcome, t)) : t = s := by
  unfold runOn at h
  split at h
  · exact (Prod.mk.inj h).2.symm
  · rename_i invocation hinvocation
    obtain ⟨request, level⟩ := invocation
    cases request with
    | assemble job => exact absurd hinvocation (hparse job level)
    | opcodes yaml => exact (Prod.mk.inj h).2.symm
    | version => exact (Prod.mk.inj h).2.symm
    | help => exact (Prod.mk.inj h).2.symm

theorem run_frame (sound : files.Sound regular target?) (parser : ArgumentParser)
    (reader : SettingsReader) (args : List String)
    (h : (runOn parser reader files args).run s = (outcome, t)) :
    (outcome.exit ≠ 0 → regular t = regular s) ∧
    ((∀ job level, parser args ≠ some ⟨.assemble job, level⟩) → t = s) ∧
    ∀ job level, parser args = some ⟨.assemble job, level⟩ →
      (outcome.exit = 0 ↔ ∃ source file bus format a u v,
        job.Assembles reader files s source file bus format a u ∧
        files.Writes (Path.withExtension job.output.toList format.name.toList)
          (a.image.render format) u v) ∧
      ∀ source file bus format a u v, job.Assembles reader files s source file bus format a u →
        files.Writes (Path.withExtension job.output.toList format.name.toList)
          (a.image.render format) u v →
        t = v ∧ Files.Receives regular target?
          (Path.withExtension job.output.toList format.name.toList) (a.image.render format) s t := by
  refine ⟨fun hexit => ?_, fun hparse => state_eq_of_runOn hparse h, fun job level hparse => ?_⟩
  · by_cases hparse : ∃ job level, parser args = some ⟨.assemble job, level⟩
    · obtain ⟨job, level, hparse⟩ := hparse
      rw [runOn_of_assemble hparse] at h
      rcases job.run_cases sound h with ⟨-, hregular⟩ | ⟨hzero, -⟩
      · exact hregular
      · exact absurd hzero hexit
    · rw [state_eq_of_runOn (fun job level heq => hparse ⟨job, level, heq⟩) h]
  · rw [runOn_of_assemble hparse] at h
    have hstored : ∀ {source file bus format a u v},
        job.Assembles reader files s source file bus format a u →
        files.Writes (Path.withExtension job.output.toList format.name.toList)
          (a.image.render format) u v → outcome.exit = 0 ∧ t = v := by
      intro source file bus format a u v hassembles hwrites
      obtain ⟨outcome', hrun, hexit⟩ := hassembles.run_eq hwrites
      obtain ⟨rfl, rfl⟩ := Prod.mk.inj (h.symm.trans hrun)
      exact ⟨hexit, rfl⟩
    refine ⟨⟨fun hexit => ?_, ?_⟩, ?_⟩
    · rcases job.run_cases sound h with ⟨hone, -⟩ |
        ⟨-, source, file, bus, format, a, u, hassembles, hwrites⟩
      · simp [hone] at hexit
      · exact ⟨source, file, bus, format, a, u, t, hassembles, hwrites⟩
    · rintro ⟨source, file, bus, format, a, u, v, hassembles, hwrites⟩
      exact (hstored hassembles hwrites).1
    · intro source file bus format a u v hassembles hwrites
      obtain rfl := (hstored hassembles hwrites).2
      have hreceives := sound.receives hwrites
      refine ⟨rfl, hreceives.content, fun other hother => ?_⟩
      rw [hreceives.others other hother, hassembles.keeps sound]

def utf8 (t : Text) : List UInt8 :=
  (String.ofList t).toUTF8.data.toList

theorem decode?_utf8 (t : Text) : decode? (utf8 t) = some t := by
  have hbytes : (⟨(utf8 t).toArray⟩ : ByteArray) = (String.ofList t).toUTF8 := by
    rw [utf8, Array.toArray_toList]
  have hvalid : (String.ofList t).toUTF8.IsValidUTF8 := (String.ofList t).isValidUTF8
  rw [decode?, hbytes, String.fromUTF8?, dif_pos hvalid]
  exact congrArg some String.toList_ofList

def sampleArgs : List String :=
  ["assemble", "--if", "in.asm", "--of", "out", "--dbl", "8", "--config", "set.yml", "--pad"]

def sampleJob : Job :=
  ⟨"in.asm", "out", some "set.yml", { data := some 8, pad := true }, false⟩

def sampleSettings : Settings :=
  { data := some 9, address := some 16, format := some .coe }

def sampleTree : FileTree :=
  ((FileTree.empty.add "in.asm".toList (.file (utf8 sampleSource))).add "set.yml".toList
    (.file (utf8 sampleSettings.yaml.toList))).add "out.coe".toList (.file [])

def sampleTarget : Location :=
  ["work".toList, "out.coe".toList]

theorem exists_assembles_sampleTree :
    ∃ a, sampleJob.Assembles readSettings FileTree.access sampleTree sampleSource sampleSettings
      sampleBus .coe a sampleTree := by
  obtain ⟨a, ha, -⟩ := exists_assemble_sampleSource
  have hfile : (readSettings (utf8 sampleSettings.yaml.toList)).toOption = some sampleSettings := by
    decide +kernel
  exact ⟨a, ⟨_, _, rfl, decode?_utf8 sampleSource, _, rfl, toOption_eq_some.mp hfile⟩, rfl, rfl,
    rfl, ha⟩

theorem run_frame_sampleArgs :
    FileTree.access.Sound FileTree.regular FileTree.target? ∧
    (parse? sampleArgs = some ⟨.assemble sampleJob, .warn⟩ ∧
      (run sampleArgs sampleTree).1.exit = 0 ∧
      ∃ a, (assemble sampleBus true sampleSource).result = .ok a ∧
        (run sampleArgs sampleTree).2.regular sampleTarget = some (a.image.render .coe) ∧
        ∀ other, other ≠ sampleTarget →
          (run sampleArgs sampleTree).2.regular other = sampleTree.regular other) ∧
    ((run sampleArgs .empty).1.exit ≠ 0 ∧
      (run sampleArgs .empty).2.regular = FileTree.empty.regular) ∧
    ((∀ job level, parse? ["isa"] ≠ some ⟨.assemble job, level⟩) ∧
      (run ["isa"] sampleTree).2 = sampleTree) := by
  have sound := FileTree.access_sound
  have hruns : ∀ args tree, (runOn parse? readSettings FileTree.access args).run tree =
      ((run args tree).1, (run args tree).2) := fun _ _ => rfl
  have hparse : parse? sampleArgs = some ⟨.assemble sampleJob, .warn⟩ := by decide +kernel
  obtain ⟨a, hassembles⟩ := exists_assembles_sampleTree
  let path := Path.withExtension "out".toList Format.coe.name.toList
  let after := (sampleTree.putFile sampleTarget []).putFile sampleTarget (a.image.render .coe)
  have hwrites : FileTree.access.Writes path (a.image.render .coe) sampleTree after :=
    Files.store_eq_ok_iff.mp rfl
  have htarget : after.target? path = some (.file sampleTarget) := rfl
  obtain ⟨hexit, hstored⟩ :=
    (run_frame sound parse? readSettings sampleArgs (hruns sampleArgs sampleTree)).2.2 _ _ hparse
  obtain ⟨hafter, hreceives⟩ := hstored _ _ _ _ _ _ _ hassembles hwrites
  rw [← hafter] at htarget
  have hfailed : (run sampleArgs .empty).1.exit ≠ 0 := by decide +kernel
  have hisa : parse? ["isa"] = some ⟨.opcodes false, .warn⟩ := by decide +kernel
  have hother : ∀ job level, parse? ["isa"] ≠ some ⟨.assemble job, level⟩ := by simp [hisa]
  refine ⟨sound, ⟨hparse, hexit.mpr ⟨_, _, _, _, _, _, _, hassembles, hwrites⟩, a,
    hassembles.assembled, ?_, ?_⟩, ⟨hfailed, ?_⟩, hother, ?_⟩
  · obtain ⟨place, hplace, hcontent⟩ := hreceives.content.resolve_left
      fun hdevice => absurd (htarget.symm.trans hdevice) (by simp)
    obtain rfl := Files.Target.file.inj (Option.some.inj (htarget.symm.trans hplace))
    exact hcontent
  · intro other hne
    exact hreceives.others other fun heq =>
      hne (Files.Target.file.inj (Option.some.inj (htarget.symm.trans heq))).symm
  · exact (run_frame sound parse? readSettings sampleArgs (hruns _ _)).1 hfailed
  · exact (run_frame sound parse? readSettings ["isa"] (hruns _ _)).2.1 hother

def idleArgs : List String :=
  ["assemble", "--if", "in.asm", "--of", "out", "--dbl", "8", "--abl", "16", "--off", "mif"]

def idleJob : Job :=
  ⟨"in.asm", "out", none, { data := some 8, address := some 16, format := some .mif }, false⟩

def idleTree : FileTree :=
  FileTree.empty.add "in.asm".toList
    (.file (utf8 ".head\n.endhead\n.code\n.main\nNOP\n.endmain\n.endcode\n".toList))

theorem run_help_stores_nothing :
    parse? idleArgs = some ⟨.assemble idleJob, .warn⟩ ∧
    ∀ args ∈ ["--version" :: idleArgs, idleArgs ++ ["--help"]],
      ¬((run args idleTree).1.exit = 0 → ∃ source file bus format a u,
        idleJob.Assembles readSettings FileTree.access idleTree source file bus format a u ∧
        Files.Receives FileTree.regular FileTree.target?
          (Path.withExtension "out".toList format.name.toList) (a.image.render format) idleTree
          (run args idleTree).2) := by
  refine ⟨by decide +kernel, fun args hargs hreceives => ?_⟩
  have hall : ∀ args ∈ ["--version" :: idleArgs, idleArgs ++ ["--help"]],
      (run args idleTree).1.exit = 0 ∧ (run args idleTree).2 = idleTree := by decide +kernel
  obtain ⟨hexit, htree⟩ := hall args hargs
  obtain ⟨_, _, _, format, a, _, hassembles, hcontent⟩ := hreceives hexit
  obtain rfl : Format.mif = format := Option.some.inj hassembles.format
  have hnone : idleTree.target? (Path.withExtension "out".toList Format.mif.name.toList) =
      none := by decide +kernel
  rw [htree] at hcontent
  exact hcontent.target_ne_none hnone

end Command

end CrossAssembler
