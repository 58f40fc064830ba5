/-
  EntityFormulas/CommandLine/Invocation.lean
  ==========================================
  **What a command line asks for.**

  The arguments are options of the program, the name of a command, and the
  arguments of the command.  The options of the program may also stand after
  the name, and then take precedence.  At either place an option is given at
  most once.  The value of an option follows it, as the next argument or behind
  an equals sign.  After a lone `--` no argument is an option.
-/
import EntityFormulas.Collection.Dict

namespace EntityFormulas

/-- How answers are written. -/
inductive OutputFormat where
  | text
  | json
deriving DecidableEq, Repr

def OutputFormat.ofName? : String → Option OutputFormat
  | "text" => some .text
  | "json" => some .json
  | _ => none

/-- The entity that a command works on. -/
structure Target where
  /-- The file with the contents of the store. -/
  store : String
  tenant : String
  entity : String
deriving DecidableEq, Repr

/-- What the program can do. -/
inductive Command where
  /-- Shows the tree of a formula. -/
  | parse (formula : String)
  /-- Shows the parts of a template. -/
  | template (source : String)
  /-- Shows what a formula reads. -/
  | deps (formula : String)
  /-- Evaluates a formula for an entity. -/
  | eval (formula : String) (target : Target) (strict : Bool)
  /-- Recomputes the derived properties of an entity. -/
  | compute (target : Target) (onlyStale : Bool)
deriving DecidableEq, Repr

/-- A command and the options of the program. -/
structure Invocation where
  output : OutputFormat := .text
  /-- Leaves out results and error messages. -/
  quiet : Bool := false
  /-- The file with the settings. -/
  config : Option String := none
  command : Command
deriving DecidableEq, Repr

/-! ### Arguments -/

/-- The names that one place of the command line knows. -/
structure OptionNames where
  /-- Options with a value. -/
  valued : List String
  /-- Options without a value. -/
  flags : List String

/-- What was given at one place of the command line. -/
structure GivenOptions where
  values : List (String × String) := []
  flags : List String := []

/-- Arguments as they are read: the options, the other arguments and the arguments left. -/
structure ReadArguments where
  given : GivenOptions := {}
  words : List String := []
  rest : List String := []

namespace GivenOptions

def value? (g : GivenOptions) (name : String) : Option String := Entries.find? name g.values

def has (g : GivenOptions) (flag : String) : Bool := g.flags.contains flag

/-- Adds a value, unless there is one. -/
def addValue? (g : GivenOptions) (name value : String) : Option GivenOptions :=
  if (g.value? name).isSome then none else some { g with values := (name, value) :: g.values }

/-- Adds a flag, unless it is there. -/
def addFlag? (g : GivenOptions) (flag : String) : Option GivenOptions :=
  if g.has flag then none else some { g with flags := flag :: g.flags }

end GivenOptions

/-- Whether an argument looks like an option. -/
def looksLikeOption (arg : String) : Bool :=
  match arg.toList with
  | '-' :: _ :: _ => true
  | _ => false

/-- Splits an option into its name and the value behind an equals sign. -/
def splitOption (arg : String) : String × Option String :=
  match arg.toList.span (· != '=') with
  | (name, _ :: value) => (String.ofList name, some (String.ofList value))
  | (name, []) => (String.ofList name, none)

/-- Reads arguments.  With `stopsAtWord` the first word ends the reading and stays. -/
def readArguments (names : OptionNames) (stopsAtWord : Bool) :
    List String → ReadArguments → Option ReadArguments
  | [], r => some r
  | "--" :: rest, r =>
    if stopsAtWord then none else some { r with words := r.words ++ rest }
  | arg :: rest, r =>
    if !looksLikeOption arg then
      if stopsAtWord then some { r with rest := arg :: rest }
      else readArguments names stopsAtWord rest { r with words := r.words ++ [arg] }
    else
      let (name, attached) := splitOption arg
      if names.valued.contains name then
        match attached, rest with
        | some value, rest =>
          (r.given.addValue? name value).bind fun given =>
            readArguments names stopsAtWord rest { r with given }
        | none, value :: rest =>
          if looksLikeOption value then none
          else
            (r.given.addValue? name value).bind fun given =>
              readArguments names stopsAtWord rest { r with given }
        | none, [] => none
      else if names.flags.contains name && attached.isNone then
        (r.given.addFlag? name).bind fun given =>
          readArguments names stopsAtWord rest { r with given }
      else none

/-! ### Commands -/

/-- The options of the program. -/
def programOptions : OptionNames := ⟨["--output", "--config"], ["--quiet"]⟩

/-- The options that select an entity. -/
def targetOptions : List String := ["--store", "--tenant", "--entity"]

/-- The options of a command, those of the program included. -/
def commandOptions (command : String) : OptionNames :=
  match command with
  | "eval" =>
    ⟨programOptions.valued ++ targetOptions, programOptions.flags ++ ["--strict"]⟩
  | "compute" =>
    ⟨programOptions.valued ++ targetOptions, programOptions.flags ++ ["--only-stale"]⟩
  | _ => programOptions

/-- A file name is not empty. -/
def fileName? (name : String) : Option String := if name = "" then none else some name

/-- The entity that the options select; all three are needed. -/
def target? (g : GivenOptions) : Option Target := do
  some ⟨← (← g.value? "--store") |> fileName?, ← g.value? "--tenant", ← g.value? "--entity"⟩

/-- The command of that name with its arguments. -/
def command? (name : String) (r : ReadArguments) : Option Command :=
  match name, r.words with
  | "parse", [formula] => some (.parse formula)
  | "template", [source] => some (.template source)
  | "deps", [formula] => some (.deps formula)
  | "eval", [formula] => (target? r.given).map fun t => .eval formula t (r.given.has "--strict")
  | "compute", [] => (target? r.given).map fun t => .compute t (r.given.has "--only-stale")
  | _, _ => none

/-- The file with the settings, which must have a name if it is given. -/
def config? (g : GivenOptions) : Option (Option String) :=
  match g.value? "--config" with
  | some name => (fileName? name).map some
  | none => some none

/-- The format of answers, if it is given. -/
def output? (g : GivenOptions) : Option (Option OutputFormat) :=
  match g.value? "--output" with
  | some name => (OutputFormat.ofName? name).map some
  | none => some none

/-- What the arguments ask for, if they can be understood. -/
def Invocation.ofArguments? (args : List String) : Option Invocation := do
  let before ← readArguments programOptions true args {}
  let name :: rest := before.rest | none
  let after ← readArguments (commandOptions name) false rest {}
  let command ← command? name after
  let formats := (← output? after.given).or (← output? before.given)
  some {
    output := formats.getD .text
    quiet := before.given.has "--quiet" || after.given.has "--quiet"
    config := (← config? after.given).or (← config? before.given)
    command }

end EntityFormulas
