import TileGrammar.Codepoint.Allocator
import TileGrammar.Compiler.Derivation
import TileGrammar.Edge.Catalog
import TileGrammar.Glyph.Glyph
import TileGrammar.Grammar.Spec
import TileGrammar.Pack.Pack
import TileGrammar.Settings

/-!
# The compiler

A compiler turns grammars into glyphs and keeps the last output of each tile.
It has an allocator of its own. In a batch a grammar that fails is noted and
the rest is compiled all the same. A call that fails leaves the compiler as it
was.
-/

set_option autoImplicit false

namespace TileGrammar

structure Output where
  glyph : Glyph
  codepoint : Codepoint
  tileId : String
  imagePath : Option String
  edges : Signature
  grammarHash : String

namespace Output

def schema : Schema Output where
  blank := ⟨Glyph.blank, ⟨0⟩, "", none, Signature.blank, ""⟩
  fields := [
    .of "glyph" .required Glyph.codec Output.glyph fun o v => { o with glyph := v },
    .of "codepoint" .required Codepoint.codec Output.codepoint
      fun o v => { o with codepoint := v },
    .of "tile_id" .required .text Output.tileId fun o v => { o with tileId := v },
    .of "image_path" .nullable (.nullable .text) Output.imagePath
      fun o v => { o with imagePath := v },
    .of "edges" .required Signature.codec Output.edges fun o v => { o with edges := v },
    .of "grammar_hash" .required .text Output.grammarHash
      fun o v => { o with grammarHash := v }]

end Output

structure Batch where
  outputs : List Output
  errors : List String
  registryText : String
  registryHash : String

structure Compiler where
  config : CompilerSettings
  allocator : Allocator
  compiled : Dict Output

namespace Compiler

def ofAllocator (config : CompilerSettings) (a : Allocator) : Compiler := ⟨config, a, ∅⟩

def fresh (config : CompilerSettings) : Compiler := ofAllocator config .fresh

def checkCategory (c : Compiler) (g : Grammar) : Except Error Unit :=
  if c.config.strictCategories && !(Category.ofText g.category).isKnown then
    .error (.unknownCategory g.category)
  else .ok ()

def compile (c : Compiler) (g : Grammar) (imagePath : Option String) (char : Option Char) :
    Except Error (Output × Compiler) := do
  g.check
  c.checkCategory g
  let category := Category.ofText g.category
  let id := g.tileId
  let (codepoint, allocator) ← c.allocator.assign id category.band
  let glyph ← Derivation.glyph g category codepoint char
  let output : Output := ⟨glyph, codepoint, id, imagePath, g.edges, digestOf Grammar.codec g⟩
  .ok (output, ⟨c.config, allocator, c.compiled.insert id output⟩)

/-- What compiling a list of grammars has come to: outputs and errors, the last ones first. -/
structure Progress where
  compiler : Compiler
  outputs : List Output
  errors : List String

namespace Progress

def ofCompiler (c : Compiler) : Progress := ⟨c, [], []⟩

def addError (p : Progress) (message : String) : Progress :=
  { p with errors := message :: p.errors }

def addGrammar (p : Progress) (g : Grammar) : Progress :=
  match p.compiler.compile g none none with
  | .ok (output, c) => ⟨c, output :: p.outputs, p.errors⟩
  | .error e => p.addError ("Failed to compile " ++ g.tileId ++ ": " ++ e.message)

def addSpec (p : Progress) (s : Spec) : Progress :=
  match s.check with
  | .ok _ => s.family.foldl addGrammar p
  | .error e => p.addError ("Invalid spec " ++ s.id ++ ": " ++ e.message)

end Progress

def registry (c : Compiler) : GlyphSet :=
  ⟨c.config.registryVersion, c.config.registryDescription, c.compiled.values.map Output.glyph⟩

/-- Expands and compiles every spec. Only a batch without specs is an error. -/
def compileAll (c : Compiler) (specs : List Spec) : Except Error (Batch × Compiler) :=
  if specs.isEmpty then .error .emptyBatch
  else
    let p := specs.foldl Progress.addSpec (.ofCompiler c)
    let r := p.compiler.registry
    .ok (⟨p.outputs.reverse, p.errors.reverse, r.text, r.digest⟩, p.compiler)

def get? (c : Compiler) (id : String) : Option Output := c.compiled.get? id

/-- Registers the edges of every compiled tile, by tile id. -/
def fillCatalog (c : Compiler) (catalog : Catalog) : Catalog :=
  catalog.registerAll (c.compiled.values.map fun o => (o.tileId, o.edges))

end Compiler

end TileGrammar
