import TileGrammar.FileTree
import TileGrammar.Grammar.Spec
import TileGrammar.Version

/-!
# Grammar packs

A bundle of specs with the least version of the engine that it asks for.
Packs are collected from the files of a directory that end in `json`; a file
that cannot be read as a pack is passed over.
-/

set_option autoImplicit false

namespace TileGrammar

def engineRelease : String := "1.0.0"

structure Pack where
  id : String
  name : String
  description : String
  packVersion : String
  engineMinVersion : String
  deprecated : Bool
  specs : List Spec
  deriving DecidableEq

namespace Pack

def tileTotal (p : Pack) : Nat := Spec.tileTotal p.specs

def schema : Schema Pack where
  blank := ⟨"", "", "", "1.0.0", "1.0.0", false, []⟩
  fields := [
    .of "id" .required .text Pack.id fun p v => { p with id := v },
    .of "name" .required .text Pack.name fun p v => { p with name := v },
    .of "description" .defaulted .text Pack.description fun p v => { p with description := v },
    .of "pack_version" .defaulted .text Pack.packVersion fun p v => { p with packVersion := v },
    .of "engine_min_version" .defaulted .text Pack.engineMinVersion
      fun p v => { p with engineMinVersion := v },
    .of "deprecated" .defaulted .flag Pack.deprecated fun p v => { p with deprecated := v },
    .of "specs" .defaulted (.listOf Spec.codec) Pack.specs fun p v => { p with specs := v }]

def codec : Codec Pack := schema.codec

/-- Fails where the pack needs a later engine than the given one. -/
def checkEngineAt (engine : String) (p : Pack) : Except Error Unit := do
  let current ← orFail .engineRelease (Version.ofText? engine)
  let needed ← orFail (.packVersion p.id p.engineMinVersion) (Version.ofText? p.engineMinVersion)
  if current.compareTotal needed = .lt then
    .error (.engineTooOld p.id p.engineMinVersion engine)
  else .ok ()

def checkEngine (p : Pack) : Except Error Unit := checkEngineAt engineRelease p

end Pack

structure PackSet where
  packs : Dict Pack

namespace PackSet

def empty : PackSet := ⟨∅⟩

def register (r : PackSet) (p : Pack) : PackSet := ⟨r.packs.insert p.id p⟩

def get? (r : PackSet) (id : String) : Option Pack := r.packs.get? id

def list (r : PackSet) : List Pack := r.packs.values

def isEmpty (r : PackSet) : Bool := r.packs.isEmpty

/-- The pack of a file, if its name and its text make one. -/
def packOf? (file : String × FileContent) : Option Pack :=
  if extension? file.1 = some "json" then match file.2 with
    | .text s => Pack.codec.ofText? s
    | _ => none
  else none

def registerFile (r : PackSet) (file : String × FileContent) : PackSet :=
  match packOf? file with
  | some p => r.register p
  | none => r

/-- The files are taken in the order in which they are listed. -/
def ofDirectory : DirectoryContent → Except Error PackSet
  | .missing => .ok empty
  | .blocked => .error .unreadableFile
  | .entries files => .ok (files.foldl registerFile empty)

end PackSet

end TileGrammar
