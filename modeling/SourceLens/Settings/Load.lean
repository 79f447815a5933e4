import SourceLens.Fault
import SourceLens.Settings.Schema

/-!
# Loading settings

Settings come from four places, each stronger than the next: overrides given by the caller,
variables of the environment, the file of the project or one named explicitly, and the global
file. They are merged key by key and then validated; the first violation is reported. The dump of
the settings that come out is validated once more.
-/

namespace SourceLens.Settings

/-- Where settings come from. -/
structure Sources where
  system : System
  globalPath : Text
  /-- The directory of the project; without one, the working directory. -/
  root : Option Text := none
  /-- A file that takes the place of the project's and must exist. -/
  configFile : Option Text := none
  vars : Variables := []
  overrides : Entries := []

/-- Why settings could not be loaded. -/
inductive LoadError where
  | config (cause : ConfigCause)
  | raised (cause : Raised)
  /-- The value that breaks a rule cannot be shown. -/
  | notShown
  /-- The dump of accepted settings breaks a rule. -/
  | rejected (first : Violation) (rest : List Violation)
  deriving Repr

def Sources.directory (sources : Sources) : Except LoadError Text :=
  match sources.root with
  | some root => .ok root
  | none => sources.system.directory.mapError .raised

/-- The path of a file that is named explicitly and must exist. -/
def namedFile (system : System) (path : Text) : Except LoadError Text := do
  let path ← (expandUser system.homes path).mapError .raised
  let status ← (system.status path).mapError .raised
  if status = .file then return path
  else throw (.config (.missingFile (String.ofList path)))

/-- The path of the file that stands for the project. -/
def projectFile (sources : Sources) : Except LoadError Text := do
  let root ← sources.directory
  match sources.configFile with
  | none => return FilePath.join root [".polyscan".toList, "config.yaml".toList]
  | some path => namedFile sources.system path

/-- The entries of what a document holds; a document that holds nothing has none. -/
def topEntries (path : Text) (value : Value) : Except LoadError Entries :=
  if value.isVoid then .ok []
  else
    match value with
    | .map entries => .ok entries
    | _ => .error (.config (.unreadable (String.ofList path) "top-level value must be a mapping"))

def LoadError.ofDocument (path : Text) : DocumentError → LoadError
  | .malformed reason => .config (.unreadable (String.ofList path) reason)
  | .raised cause => .raised cause

/-- `_load_yaml`: the entries of a settings file; a file that is not there has none. -/
def readFile (packages : Packages) (system : System) (path : Text) : Except LoadError Entries := do
  let status ← (system.status path).mapError .raised
  if status = .absent then return []
  let bytes ← (system.content path).mapError .raised
  let value ← (packages.documents bytes).mapError (.ofDocument path)
  topEntries path value

/-- The error that a failure makes: its first violation. -/
def LoadError.ofFailure : Failure → LoadError
  | .raised cause => .raised cause
  | .invalid first _ =>
    if first.input.isShown then
      .config (.invalidValue first.dotted first.input first.message)
    else .notShown

def mergedEntries (packages : Packages) (sources : Sources) : Except LoadError Entries := do
  let project ← projectFile sources
  let globalEntries ← readFile packages sources.system sources.globalPath
  let projectEntries ← readFile packages sources.system project
  let overrides ← (packages.overrides declared sources.overrides).mapError .raised
  let environment ←
    (packages.environment declared sources.overrides sources.vars).mapError .raised
  return packages.gather [overrides, environment, Entries.merge globalEntries projectEntries]

/-- The settings that entries make, by their dump. -/
def resolve (validator : Validator) (homes : Homes) (entries : Entries) :
    Except LoadError Value := do
  let dumped ←
    (validator.settings (validator.sectionFields homes) entries).mapError .ofFailure
  dumped.mapError .raised

/-- The last validation: settings by their dump, validated as a value. -/
def confirm (validator : Validator) (homes : Homes) (value : Value) : Except LoadError Value :=
  match validator.config homes value with
  | .ok dumped => dumped.mapError .raised
  | .error (.raised cause) => .error (.raised cause)
  | .error (.invalid first rest) => .error (.rejected first rest)

/-- The settings of all sources before they are validated again. -/
def resolved (packages : Packages) (sources : Sources) : Except LoadError Value := do
  let entries ← mergedEntries packages sources
  resolve packages.validator sources.system.homes entries

/-- `load_config`: the settings of all sources, by their dump. -/
def load (packages : Packages) (sources : Sources) : Except LoadError Value := do
  let value ← resolved packages sources
  confirm packages.validator sources.system.homes value

end SourceLens.Settings
