import CrossAssembler.Assembly
import CrossAssembler.Command.Arguments
import CrossAssembler.File.Tree
import CrossAssembler.Instruction.TableFile
import CrossAssembler.Report.Diagnostic
import CrossAssembler.Report.Dump
import CrossAssembler.Report.OpcodeTable

namespace CrossAssembler.Command

inductive Output where
  | line (text : String)
  | event (e : Event)
deriving DecidableEq, Repr

abbrev Console := Traced Output Failure

def say (text : String) : Console Unit :=
  .tell (.line text)

def decode? (bytes : List UInt8) : Option Text :=
  (String.fromUTF8? ⟨bytes.toArray⟩).map String.toList

def sourceOf (path : String) : Fetched → Except Failure Text
  | .notOpened cause => .error (.openFile path cause)
  | .notRead cause => .error (.openFile path cause)
  | .content bytes =>
      match decode? bytes with
      | none => .error (.openFile path "stream did not contain valid UTF-8")
      | some text => .ok text

abbrev SettingsReader := List UInt8 → Except String Settings

def readSettings : SettingsReader :=
  fun bytes => (Settings.parseBytes bytes).mapError (·.message)

def settingsOf (reader : SettingsReader) (path : String) : Fetched → Except Failure Settings
  | .notOpened cause => .error (.openFile path cause)
  | .notRead cause => .error (.parseConfig path cause)
  | .content bytes => (reader bytes).mapError (.parseConfig path)

structure Delivery where
  image : Image
  format : Format
  path : String
deriving DecidableEq, Repr

def Delivery.bytes (d : Delivery) : List UInt8 :=
  d.image.render d.format

namespace Job

def greet (job : Job) : Console Unit := do
  say "LAPILU Cross Assembler"
  say (Report.bold "1." ++ " Read File")
  say ("  < " ++ job.input)

def settings (job : Job) (reader : SettingsReader) (config : Option Fetched) :
    Except Failure Settings := do
  let file ← match job.config, config with
    | some path, some fetched => settingsOf reader path fetched
    | _, _ => pure {}
  return file.merge job.flags

def target (job : Job) (format : Format) : String :=
  String.ofList (Path.withExtension job.output.toList format.name.toList)

def prepare (job : Job) (reader : SettingsReader) (config : Option Fetched) (source : Text) :
    Console Delivery := do
  let settings ← .ofExcept (job.settings reader config)
  let bus ← .ofExcept (settings.bus.mapError .settings)
  let format ← .ofExcept (settings.requiredFormat.mapError .settings)
  .tell (.event (.configured bus.data bus.address format.name))
  say (Report.bold "2." ++ " Assemble")
  let assembly ← ((assemble bus settings.pad source).mapLog .event).mapError .program
  say s!"  {assembly.sections.length} sections, {assembly.image.words.length} words"
  if job.dump then
    ⟨(Report.dump assembly).map .line, .ok ()⟩
  say (Report.bold "3." ++ s!" Write {format.name}")
  return { image := assembly.image, format, path := job.target format }

def storeFailure (path : String) : StoreError → Failure
  | .missingDirectory dir => .missingDirectory (String.ofList dir)
  | .create cause => .createFile path cause
  | .write cause => .writeFile path cause

def delivered (d : Delivery) : List Output :=
  [.event (.wrote d.image.words.length d.path), .line ("  > " ++ d.path)]

def failed (job : Job) (source : Text) (failure : Failure) : List Output :=
  (Report.diagnostic job.input source failure).map .line

end Job

structure Outcome where
  exit : Nat
  output : List Output
deriving DecidableEq, Repr

def Outcome.report (o : Outcome) : String :=
  String.join (o.output.filterMap fun
    | .line text => some (text ++ "\n")
    | .event _ => none)

def Outcome.events (o : Outcome) (level : Level) : List Event :=
  o.output.filterMap fun
    | .event e => if level.gravity ≤ e.level.gravity then some e else none
    | .line _ => none

section

variable {m : Type → Type} [Monad m] {η : Type}

def Job.fetchConfig (files : Files m η) (job : Job) : m (Option Fetched) :=
  match job.config with
  | none => pure none
  | some path => some <$> files.fetch path.toList

def Job.runOn (reader : SettingsReader) (files : Files m η) (job : Job) : m Outcome := do
  let greeting := job.greet.log
  match sourceOf job.input (← files.fetch job.input.toList) with
  | .error f => return ⟨1, greeting ++ job.failed [] f⟩
  | .ok source =>
      let config ← job.fetchConfig files
      let work := job.prepare reader config source
      let told := greeting ++ work.log
      match work.result with
      | .error f => return ⟨1, told ++ job.failed source f⟩
      | .ok d =>
          match ← files.store d.path.toList d.bytes with
          | .error e => return ⟨1, told ++ job.failed source (Job.storeFailure d.path e)⟩
          | .ok () => return ⟨0, told ++ Job.delivered d⟩

end

def versionText : String := "lpasm 0.1.0"

def usageText : String :=
  "Usage: lpasm [--log-level LEVEL] assemble --if FILE --of FILE [--dbl N] [--abl N]\n" ++
  "         [--off bin|coe|mif] [--config FILE] [--pad] [-d|--dump]\n" ++
  "       lpasm [--log-level LEVEL] isa [--yaml]"

def opcodesText (yaml : Bool) : String :=
  if yaml then String.ofList (Opcodes.yamlTable Opcodes.table).toList.dropLast
  else "\n".intercalate Report.opcodeTable

section

variable {m : Type → Type} [Monad m] {η : Type}

def Request.runOn (reader : SettingsReader) (files : Files m η) : Request → m Outcome
  | .assemble job => job.runOn reader files
  | .opcodes yaml => return ⟨0, [.line (opcodesText yaml)]⟩
  | .version => return ⟨0, [.line versionText]⟩
  | .help => return ⟨0, [.line usageText]⟩

abbrev ArgumentParser := List String → Option Invocation

def runOn (parser : ArgumentParser) (reader : SettingsReader) (files : Files m η)
    (args : List String) : m Outcome :=
  match parser args with
  | none => return ⟨2, []⟩
  | some invocation => invocation.request.runOn reader files

end

def run (args : List String) (tree : FileTree) : Outcome × FileTree :=
  (runOn parse? readSettings FileTree.access args).run tree

end CrossAssembler.Command
