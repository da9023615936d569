/-!
# The command line

What may stand on the command line: options for every task, the name of the
task, and the options of that task. Every option takes a value, which follows
it or is joined to it. Two hyphens alone end the options. A line that does not
fit asks for nothing.
-/

set_option autoImplicit false

namespace TileGrammar

structure CommandOption where
  long : String
  short : Option Char
  deriving DecidableEq

inductive Task where
  | packs
  | expand (pack : String)
  | compile (pack out : Option String)
  | adjacency (pack : Option String)
  | validate (grammar payload : String)
  | stats
  | prompt (grammar : String)
  deriving DecidableEq

structure CommandLine where
  packsDirectory : String
  config : String
  palettes : Option String
  task : Task
  deriving DecidableEq

namespace CommandOption

def behind? : List Char → List Char → Option (List Char)
  | [], cs => some cs
  | l :: ls, c :: cs => if l = c then behind? ls cs else none
  | _ :: _, [] => none

/-- The value joined to a long option: nothing, or something behind an equals sign. -/
def joinedLong? : List Char → Option (Option String)
  | [] => some none
  | '=' :: cs => some (some (String.ofList cs))
  | _ => none

/-- The value joined to a short option: nothing, or all that follows. -/
def joinedShort : List Char → Option String
  | [] => none
  | '=' :: cs => some (String.ofList cs)
  | cs => some (String.ofList cs)

def matchLong? (o : CommandOption) (arg : List Char) : Option (Option String) :=
  (behind? ("--" ++ o.long).toList arg).bind joinedLong?

def matchShort? (o : CommandOption) (arg : List Char) : Option (Option String) :=
  o.short.bind fun c => (behind? ['-', c] arg).map joinedShort

/-- The value joined to an argument, if the argument is this option. -/
def match? (o : CommandOption) (arg : List Char) : Option (Option String) :=
  (o.matchLong? arg).or (o.matchShort? arg)

end CommandOption

namespace CommandLine

def packsDirectoryOption : CommandOption := ⟨"packs-dir", some 'p'⟩

def configOption : CommandOption := ⟨"config", some 'c'⟩

def palettesOption : CommandOption := ⟨"palettes", none⟩

def packOption : CommandOption := ⟨"pack", none⟩

def outOption : CommandOption := ⟨"out", some 'o'⟩

def grammarOption : CommandOption := ⟨"grammar", some 'g'⟩

def payloadOption : CommandOption := ⟨"payload", some 'p'⟩

def looksLikeOption (arg : String) : Bool := arg.startsWith "-" && arg ≠ "-"

/-- Options with their values. -/
abbrev Given := List (CommandOption × String)

def given? (given : Given) (o : CommandOption) : Option String :=
  (given.find? fun g => g.1 = o).map Prod.snd

def put? (o : CommandOption) (value : String) (given : Given) : Option Given :=
  if (given? given o).isSome then none else some ((o, value) :: given)

def findOption? (options : List CommandOption) (arg : String) :
    Option (CommandOption × Option String) :=
  options.findSome? fun o => (o.match? arg.toList).map fun value => (o, value)

def optionsEnd : String := "--"

def readOptions (options : List CommandOption) : Given → List String → Option (Given × List String)
  | given, [] => some (given, [])
  | given, arg :: rest =>
    if looksLikeOption arg && arg ≠ optionsEnd then
      match findOption? options arg, rest with
      | some (o, some value), rest => (put? o value given).bind fun g => readOptions options g rest
      | some (o, none), value :: rest =>
        if looksLikeOption value then none
        else (put? o value given).bind fun g => readOptions options g rest
      | _, _ => none
    else some (given, arg :: rest)

/-- All arguments as options, with or without a mark that ends them. -/
def readAllOptions (options : List CommandOption) (args : List String) : Option Given :=
  match readOptions options [] args with
  | some (given, rest) => if rest = [] ∨ rest = [optionsEnd] then some given else none
  | none => none

def readTask (name : String) (args : List String) : Option Task :=
  match name with
  | "packs" => (readAllOptions [] args).map fun _ => .packs
  | "expand" => do
    let given ← readAllOptions [packOption] args
    some (.expand (← given? given packOption))
  | "compile" => do
    let given ← readAllOptions [packOption, outOption] args
    some (.compile (given? given packOption) (given? given outOption))
  | "adjacency" => do
    let given ← readAllOptions [packOption] args
    some (.adjacency (given? given packOption))
  | "validate" => do
    let given ← readAllOptions [grammarOption, payloadOption] args
    some (.validate (← given? given grammarOption) (← given? given payloadOption))
  | "stats" => (readAllOptions [] args).map fun _ => .stats
  | "prompt" => do
    let given ← readAllOptions [grammarOption] args
    some (.prompt (← given? given grammarOption))
  | _ => none

def ofArguments? (args : List String) : Option CommandLine :=
  match readOptions [packsDirectoryOption, configOption, palettesOption] [] args with
  | some (given, name :: rest) => (readTask name rest).map fun task =>
    { packsDirectory := (given? given packsDirectoryOption).getD "packs"
      config := (given? given configOption).getD "foundry.json"
      palettes := given? given palettesOption
      task := task }
  | _ => none

end CommandLine

end TileGrammar
