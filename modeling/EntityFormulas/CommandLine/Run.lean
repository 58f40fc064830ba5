/-
  EntityFormulas/CommandLine/Run.lean
  ===================================
  **What the program answers.**

  A command answers with lines for the standard output, or fails with a
  message for the error output and code 1.  The contents of files are given to
  it as a function, which says why a file cannot be read where it cannot.
-/
import EntityFormulas.CommandLine.Invocation
import EntityFormulas.Computation.Json
import EntityFormulas.Computation.Service
import EntityFormulas.Formula.Json
import EntityFormulas.Json.Printer
import EntityFormulas.Store.Fixture
import EntityFormulas.Text.Quoted
import EntityFormulas.Toml.Document

namespace EntityFormulas

/-- The end of a run of the program. -/
structure ExitState where
  code : Nat
  stdout : String := ""
  stderr : String := ""
deriving DecidableEq, Repr

/-- The contents of a file, or why it cannot be read. -/
abbrev Files := String → Except String String

namespace Command

/-! ### Files -/

/-- The settings; without a file the defaults. -/
def settings (files : Files) : Option String → Except String Settings
  | none => .ok {}
  | some file =>
    match files file with
    | .error reason => .error ("error reading config '" ++ file ++ "': " ++ reason)
    | .ok document =>
      match (Toml.read? document).bind (Settings.ofJson? .toml) with
      | some s => .ok s
      | none => .error ("invalid config '" ++ file ++ "': the document does not give settings")

/-- The store that a file describes. -/
def store (files : Files) (file : String) : Except StoreError MemoryStore :=
  match files file with
  | .error reason => .error (.backend ("cannot read " ++ file ++ ": " ++ reason))
  | .ok document => (Fixture.read document).map Fixture.store

/-- The store and the entity that a command works on. -/
def load (files : Files) (t : Target) : Except String (MemoryStore × Entity) :=
  match store files t.store with
  | .error e => .error e.message
  | .ok s =>
    match MemoryStore.store.fetchOne t.tenant t.entity s with
    | (.ok e, s) => .ok (s, e)
    | (.error e, _) => .error e.message

/-! ### Answers -/

/-- Lines, each with its end. -/
def unlines (lines : List String) : String := String.join (lines.map (· ++ "\n"))

/-- A tree on several lines. -/
def tree (j : Json) : String := j.pretty ++ "\n"

/-- A formula, or why the text is none. -/
def formula (source : String) : Except String Expression :=
  (Expression.parse source).mapError ParseError.report

def partLine : TemplatePart → String
  | .text content => "text  " ++ Text.quoted content
  | .interpolation source _ => "expr  " ++ source

def templateAnswer (output : OutputFormat) (t : Template) : String :=
  match output with
  | .json => tree t.toJson
  | .text => unlines (t.parts.map partLine)

def depsAnswer (output : OutputFormat) (e : Expression) : String :=
  let paths := e.traversals.map Traversal.path
  match output with
  | .json =>
    tree (.object [("dependency_paths", .texts e.dependencyPaths), ("entity_ids", .texts e.entityIds),
      ("self_properties", .texts e.ownProperties), ("traversals", .texts paths)])
  | .text =>
    let row (label : String) (names : List String) : String :=
      label ++ String.intercalate ", " names
    unlines [row "entity ids:       " e.entityIds, row "self properties:  " e.ownProperties,
      row "traversals:       " paths, row "dependency paths: " e.dependencyPaths]

/-- A value for readers; no value is called null. -/
def valueText (v : Option Value) : String := (v.map Value.displayText).getD "null"

def valueAnswer (output : OutputFormat) (v : Option Value) : String :=
  match output with
  | .json => tree (Json.object [("value", Json.orNull (v.map Value.toJson))]).sorted
  | .text => unlines [valueText v]

def resultLine (r : PropertyResult) : String :=
  match r.error with
  | some e => r.name ++ ": " ++ r.status.name ++ " (" ++ e ++ ")"
  | none => r.name ++ ": " ++ r.status.name ++ " = " ++ valueText r.value

def outcomeAnswer (output : OutputFormat) (entity : String) (o : PassOutcome) : String :=
  match output with
  | .json =>
    tree (Json.object [("all_succeeded", .bool o.allSucceeded), ("entity_id", .text entity),
      ("results", .array (o.results.map PropertyResult.toJson))]).sorted
  | .text =>
    if o.results.isEmpty then unlines ["nothing to recompute"]
    else unlines (o.results.map resultLine)

/-! ### Running -/

/-- Evaluates a formula for a stored entity. -/
def evaluate (s : Settings) (store : MemoryStore) (e : Entity) (formula : Expression) :
    Except String (Option Value) :=
  match (EvaluationContext.gather s e [formula]).run.run MemoryStore.store store with
  | (.error err, _) => .error err.message
  | (.ok ctx, _) =>
    (formula.evaluate ctx).mapError fun err => "evaluation error: " ++ err.message

/-- The answer of a command. -/
def answer (files : Files) (now : String) (output : OutputFormat) (quiet : Bool) (s : Settings) :
    Command → Except String String
  | .parse source => (formula source).map fun e => tree e.toJson
  | .template source =>
    match Template.parse source with
    | .ok t => .ok (templateAnswer output t)
    | .error e => .error e.report
  | .deps source => (formula source).map (depsAnswer output)
  | .eval source target strict => do
    let e ← formula source
    let (store, entity) ← load files target
    let v ← evaluate { s with strict := s.strict || strict } store entity e
    return if quiet then "" else valueAnswer output v
  | .compute target onlyStale => do
    let (store, entity) ← load files target
    let scope : Scope := if onlyStale then .stale else .all
    let (o, _) := (entity.recompute s now scope).run MemoryStore.store store
    return if quiet then "" else outcomeAnswer output target.entity o

end Command

namespace Invocation

/-- The files that a run may read. -/
def files (i : Invocation) : List String :=
  i.config.toList ++ match i.command with
    | .eval _ t _ | .compute t _ => [t.store]
    | _ => []

/-- The message of a failure as the error output shows it. -/
def failureText (i : Invocation) (message : String) : String :=
  if i.quiet then ""
  else match i.output with
    | .text => message ++ "\n"
    | .json => (Json.object [("error", .text message)]).compact ++ "\n"

/-- Runs a command; `now` is the time on record for what it computes. -/
def run (files : Files) (now : String) (i : Invocation) : ExitState :=
  let answer := (Command.settings files i.config).bind fun s =>
    i.command.answer files now i.output i.quiet s
  match answer with
  | .ok stdout => { code := 0, stdout }
  | .error message => { code := 1, stderr := i.failureText message }

end Invocation

end EntityFormulas
