import TileGrammar.Command.Line
import TileGrammar.Compiler.Compiler
import TileGrammar.Digest.Base64
import TileGrammar.FileTree
import TileGrammar.Grammar.Grammar
import TileGrammar.Grammar.Prompt
import TileGrammar.Validation.Judgement

/-!
# Tasks of the command line

What each task reports, given what was found where the command line points to.
A report is a value in JSON. The exit code is 0 for success, 1 where the task
could not be done, 2 for tiles that do not compile or do not pass. A task may
ask for a text to be saved and say what to report in either case.
-/

set_option autoImplicit false

namespace TileGrammar

structure Sources where
  config : FileContent
  packs : DirectoryContent
  palettes : Option FileContent

/-- A task that breaks off reports nothing. -/
structure Outcome where
  code : Nat
  report : Option Json

namespace Outcome

def success (report : Json) : Outcome := ⟨0, some report⟩

def failure (message : String) : Outcome :=
  ⟨1, some (.obj [("success", .bool false), ("error", .str message)])⟩

def judged (accepted : Bool) (report : Json) : Outcome := ⟨if accepted then 0 else 2, some report⟩

def brokenOff : Outcome := ⟨101, none⟩

end Outcome

/-- The end of a task, or a text to be saved before it ends. -/
inductive Reply where
  | done (outcome : Outcome)
  | save (path text : String) (saved failed : Outcome)

namespace Outcome

def ofResult : Except String Outcome → Outcome
  | .ok outcome => outcome
  | .error message => failure message

end Outcome

def failWith {α : Type} (lead : String) : Except Error α → Except String α
  | .ok a => .ok a
  | .error e => .error (lead ++ e.message)

def readWith {α : Type} (lead : String) : Option α → Except String α
  | some a => .ok a
  | none => .error lead

namespace PackSet

def specsOf (p : Pack) : Except Error (List Spec) := p.checkEngine.map fun _ => p.specs

/-- The specs of one pack, or of all packs, or the standard grammars if there are no packs. -/
def specsFor (r : PackSet) : Option String → Except String (List Spec)
  | some id => match r.get? id with
    | some p => failWith "" (specsOf p)
    | none => .error ("Pack not found: " ++ id)
  | none =>
    if r.isEmpty then .ok (commonGrammars.entries.map fun e => Spec.ofGrammar e.1 e.2)
    else failWith "" ((r.list.mapM specsOf).map List.flatten)

def listing (r : PackSet) : Json :=
  .arr (r.list.map fun p => .obj [
    ("id", .str p.id),
    ("name", .str p.name),
    ("version", .str p.packVersion),
    ("engine_min_version", .str p.engineMinVersion),
    ("deprecated", .bool p.deprecated),
    ("specs", .int p.specs.length),
    ("tiles", .int p.tileTotal)])

end PackSet

namespace Task

def expandReport (grammars : List Grammar) : Json := .obj [
  ("success", .bool true),
  ("count", .int grammars.length),
  ("grammars", (Codec.listOf Grammar.codec).encode grammars)]

/-- All grammars of a pack; the first spec that is not valid fails the task. -/
def runExpand (packs : PackSet) (pack : String) : Except String Outcome := do
  let specs ← packs.specsFor (some pack)
  let families ← specs.mapM fun (s : Spec) => failWith "" (s.check.map fun _ => s.family)
  .ok (.success (expandReport families.flatten))

def batchFields (batch : Batch) : List (String × Json) := [
  ("success", .bool batch.errors.isEmpty),
  ("engine_version", .str engineRelease),
  ("compiled", .int batch.outputs.length),
  ("errors", (Codec.listOf .text).encode batch.errors),
  ("registry_hash", .str batch.registryHash)]

def compileSpecs (config : Settings) (packs : PackSet) (pack : Option String) :
    Except String (Batch × Compiler) := do
  let specs ← packs.specsFor pack
  failWith "" ((Compiler.fresh config.compiler).compileAll specs)

/-- The registry is part of the report, as a reader of its text would see it. -/
def compileReport (batch : Batch) : Outcome :=
  let registry := ((Json.ofText? batch.registryText).bind Json.settled?).getD .null
  .judged batch.errors.isEmpty (.obj (batchFields batch ++ [("registry", registry)]))

def saveReport (path : String) (batch : Batch) : Outcome :=
  .judged batch.errors.isEmpty (.obj (batchFields batch ++ [("registry_path", .str path)]))

def compileReply (out : Option String) (batch : Batch) : Reply :=
  match out with
  | none => .done (compileReport batch)
  | some path => .save path batch.registryText (saveReport path batch)
      (.failure ("Failed to write " ++ path ++ ":"))

def runCompile (config : Settings) (packs : PackSet) (pack out : Option String) : Reply :=
  match compileSpecs config packs pack with
  | .ok (batch, _) => compileReply out batch
  | .error message => .done (.failure message)

def sidesCodec {α : Type} (c : Codec α) (s : Sides α) : Json :=
  .obj (Direction.all.map fun d => (d.name, c.encode (s.get d)))

def adjacencyReport (rules : Dict (Sides (List String))) : Json :=
  .obj (rules.entries.map fun e => (e.1, sidesCodec (.listOf .text) e.2))

def runAdjacency (config : Settings) (packs : PackSet) (pack : Option String) :
    Except String Outcome := do
  let (_, compiler) ← compileSpecs config packs pack
  .ok (.success (adjacencyReport (compiler.fillCatalog Catalog.empty).adjacency))

def bandReport (u : BandUse) : Json := .obj [
  ("allocated", .int u.assigned),
  ("remaining", .int u.remaining),
  ("total", .int u.total)]

def runStats (config : Settings) (packs : PackSet) : Except String Outcome := do
  let (batch, compiler) ← compileSpecs config packs none
  let bands := compiler.allocator.stats.map fun e => (e.1.name, bandReport e.2)
  .ok (.success (.obj [
    ("compiled", .int compiler.compiled.size),
    ("errors", .int batch.errors.length),
    ("bands", .obj bands)]))

structure Payload where
  width : UInt32
  height : UInt32
  data : String

namespace Payload

def schema : Schema Payload where
  blank := ⟨0, 0, ""⟩
  fields := [
    .of "width" .required .word32 Payload.width fun p v => { p with width := v },
    .of "height" .required .word32 Payload.height fun p v => { p with height := v },
    .of "rgba_base64" .required .text Payload.data fun p v => { p with data := v }]

end Payload

def readGrammar (text : String) : Except String Grammar :=
  readWith "Invalid grammar:" (Grammar.codec.ofText? text)

def readPalettes (file : Option FileContent) : Except String PaletteSet :=
  failWith "Failed to load palettes: " (PaletteSet.standardWith file)

def verdictOutcome : Except Error Verdict → Outcome
  | .ok v => .judged v.passed (Verdict.codec.encode v)
  | .error _ => .brokenOff

def runValidate (config : Settings) (palettes : Option FileContent) (grammar payload : String) :
    Except String Outcome := do
  let g ← readGrammar grammar
  let p ← readWith "Invalid payload:" (Payload.schema.codec.ofText? payload)
  let bytes ← readWith "Invalid rgba_base64:" (Base64.decode? p.data)
  let registry ← readPalettes palettes
  let policy := Policy.ofSettings config.validator
  .ok (verdictOutcome
    (policy.judgeBytes p.width.toNat p.height.toNat bytes g (registry.paletteOf? g)))

def promptOutcome : Except Error Prompt → Outcome
  | .ok p => .success (Prompt.schema.encode p)
  | .error _ => .brokenOff

def runPrompt (palettes : Option FileContent) (grammar : String) : Except String Outcome := do
  let g ← readGrammar grammar
  let registry ← readPalettes palettes
  .ok (promptOutcome (Prompt.asLit g registry))

def run (config : Settings) (packs : PackSet) (palettes : Option FileContent) : Task → Reply
  | .packs => .done (.success packs.listing)
  | .expand pack => .done (.ofResult (runExpand packs pack))
  | .compile pack out => runCompile config packs pack out
  | .adjacency pack => .done (.ofResult (runAdjacency config packs pack))
  | .validate grammar payload => .done (.ofResult (runValidate config palettes grammar payload))
  | .stats => .done (.ofResult (runStats config packs))
  | .prompt grammar => .done (.ofResult (runPrompt palettes grammar))

/-- Configuration and packs are read for every task, also where they are not used. -/
def runOn (s : Sources) (task : Task) : Reply :=
  match failWith "Failed to load config: " (Settings.ofFile s.config) with
  | .error message => .done (.failure message)
  | .ok config => match failWith "Failed to load packs: " (PackSet.ofDirectory s.packs) with
    | .error message => .done (.failure message)
    | .ok registry => task.run config registry s.palettes

end Task

namespace CommandLine

def sourcesIn (l : CommandLine) (t : FileTree) : Sources :=
  ⟨t.fileAt l.config, t.directoryAt l.packsDirectory, l.palettes.map t.fileAt⟩

/-- Runs a command line on files held in memory: the outcome, and the files afterwards. -/
def runIn (t : FileTree) (l : CommandLine) : Outcome × FileTree :=
  match l.task.runOn (l.sourcesIn t) with
  | .done outcome => (outcome, t)
  | .save path text saved failed => match t.write? path text with
    | some t => (saved, t)
    | none => (failed, t)

end CommandLine

end TileGrammar
