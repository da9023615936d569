import TileGrammar.Order.Dict
import TileGrammar.Text.Basic

/-!
# File trees

Files and directories held in memory, by their path from the root. A path
leads on through directories only. Writing needs the directory to be there.
Bytes that are no text, and directories in the place of files, cannot be read.
-/

set_option autoImplicit false

namespace TileGrammar

inductive FileContent where
  | missing
  | unreadable
  | text (s : String)
  deriving DecidableEq

/-- `blocked` is something that is there but cannot be listed. -/
inductive DirectoryContent where
  | missing
  | blocked
  | entries (files : List (String × FileContent))
  deriving DecidableEq

/-- Part of a name behind its last dot. A name with no other dot than one in
front has no extension. -/
def extension? (name : String) : Option String :=
  let reversed := name.toList.reverse
  match reversed.dropWhile (· ≠ '.') with
  | _ :: _ :: _ =>
    if name = ".." then none else some (String.ofList (reversed.takeWhile (· ≠ '.')).reverse)
  | _ => none

/-- A file holds a text, or bytes that are none. -/
inductive FileNode where
  | file (content : Option String)
  | directory
  deriving DecidableEq

/-- Nodes other than the root, by the names on their path. -/
structure FileTree where
  nodes : Dict FileNode

namespace FileTree

def pathText (names : List String) : String := "/".intercalate names

def empty : FileTree := ⟨∅⟩

def node? (t : FileTree) (names : List String) : Option FileNode :=
  if names.isEmpty then some .directory else t.nodes.get? (pathText names)

def isDirectory (t : FileTree) (names : List String) : Bool :=
  t.node? names = some .directory

def parts (path : String) : List String := (splitAtChar '/' path.toList).map String.ofList

/-- The names on the way to where a path leads, starting from a directory. -/
def follow (t : FileTree) : List String → List String → Option (List String)
  | here, [] => some here
  | here, name :: rest =>
    if t.isDirectory here then
      if name = "" ∨ name = "." then t.follow here rest
      else if name = ".." then t.follow here.dropLast rest
      else t.follow (here ++ [name]) rest
    else none

def locate? (t : FileTree) (path : String) : Option (List String) :=
  if path = "" then none else t.follow [] (parts path)

def find? (t : FileTree) (path : String) : Option FileNode := (t.locate? path).bind t.node?

def fileAt (t : FileTree) (path : String) : FileContent :=
  match t.find? path with
  | none => .missing
  | some (.file (some s)) => .text s
  | some _ => .unreadable

def nameIn? (here : List String) (path : String) : Option String :=
  let names := parts path
  if names.dropLast = here then names.getLast? else none

def contentOf : FileNode → FileContent
  | .file (some s) => .text s
  | _ => .unreadable

def directoryAt (t : FileTree) (path : String) : DirectoryContent :=
  match t.locate? path with
  | none => .missing
  | some here => match t.node? here with
    | none => .missing
    | some (.file _) => .blocked
    | some .directory => .entries (t.nodes.entries.filterMap fun e =>
        (nameIn? here e.1).map fun name => (name, contentOf e.2))

def put (t : FileTree) (names : List String) (node : FileNode) : FileTree :=
  let above := (List.range names.length).filterMap fun n =>
    if n = 0 then none else some (pathText (names.take n))
  let nodes := above.foldl (fun d p => if (d.get? p).isSome then d else d.insert p .directory)
    t.nodes
  ⟨if node = .directory ∧ (nodes.get? (pathText names)).isSome then nodes
    else nodes.insert (pathText names) node⟩

def ofNodes (nodes : List (String × FileNode)) : FileTree :=
  nodes.foldl (fun t n => t.put (parts n.1) n.2) empty

/-- Fails where there is a directory, or no directory to write into. -/
def write? (t : FileTree) (path text : String) : Option FileTree :=
  match t.locate? path with
  | none => none
  | some names =>
    if t.isDirectory names || !t.isDirectory names.dropLast then none
    else some ⟨t.nodes.insert (pathText names) (.file (some text))⟩

end FileTree

end TileGrammar
