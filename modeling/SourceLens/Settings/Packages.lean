import SourceLens.Data.Display
import SourceLens.Settings.System

/-!
# Packages

The program leaves three things to packages that it does not contain: documents are read, settings
are gathered from the caller and the environment, and values are validated. Here stands what the
program uses of them and nothing of how they work: they are parameters of all that follows.

A validated object may be made from a value, or be an instance that is taken over as it is. Either
way it is known by its dump, the plain data that it is written out as.
-/

namespace SourceLens.Settings

/-- A step from a value to one of its parts. -/
inductive Step where
  | key (name : String)
  | index (i : Nat)
  deriving DecidableEq, Repr

/-- A step as it is written in a dotted place. -/
def Step.text : Step → String
  | key name => name
  | index i => toString i

/-- A broken rule, its place and the value that breaks it. -/
structure Violation where
  code : String
  message : String
  place : List Step
  input : Value
  deriving Repr

/-- The violation seen from one step further out. -/
def Violation.under (step : Step) (violation : Violation) : Violation :=
  { violation with place := step :: violation.place }

def Violation.dotted (violation : Violation) : String :=
  String.intercalate "." (violation.place.map Step.text)

/-- Why a value is not accepted: it breaks rules, or a check of the program raised an error. -/
inductive Failure where
  | invalid (first : Violation) (rest : List Violation)
  | raised (cause : Raised)
  deriving Repr

/-- The dump of a validated object, or what is raised instead. -/
abbrev Dumped := Except Raised Value

abbrev Check := Value → Except Failure Dumped

def Dumped.all : List Dumped → Except Raised (List Value)
  | [] => .ok []
  | first :: rest => first.bind fun value => (Dumped.all rest).map (value :: ·)

/-- One field of a model: its name, the dump of its default, and how a value for it is checked. -/
structure Field where
  name : String
  missing : Value
  check : Check

namespace Field

/-- What becomes of a field where some entries are given. -/
def outcome (field : Field) (entries : Entries) : Except Failure Dumped :=
  match entries.field? field.name with
  | some value => field.check value
  | none => .ok (.ok field.missing)

/-- The dump of a model from those of its fields. -/
def record (fields : List Field) (dumps : List Dumped) : Dumped :=
  (Dumped.all dumps).map fun values => .object ((fields.map Field.name).zip values)

def unknown (fields : List Field) (entries : Entries) : Entries :=
  entries.filter fun (key, _) => !fields.any fun field => key = .text field.name

end Field

/-- A package that validates values. -/
structure Validator where
  /-- An integer that passes a check of the program. -/
  int : (Int → Except Raised Int) → Check
  /-- A text that passes a check of the program. -/
  text : (String → Except Raised String) → Check
  choice : List String → Check
  nullable : Check → Check
  list : Check → Check
  /-- An instance of the class of a model, or a mapping from which one is made. -/
  model : String → List Field → Check
  /-- The entries of a mapping from which settings are made; every key must be a field. -/
  settings : List Field → Entries → Except Failure Dumped
  /-- The integer that a value is taken for. -/
  intOf : Value → Option Int
  textOf : Value → Option String
  itemsOf : Value → Option (List Value)
  entriesOf : Value → Option Entries
  /-- The dump of an instance of the class of a model. -/
  instanceOf : String → Value → Option Dumped
  /-- Whether a key is a text, one that cannot be shown as such included. -/
  isName : Scalar → Bool

abbrev Variables := List (String × String)

/-- How settings are declared to the package that gathers them: what the names of variables start
with, what stands between the parts of a name, and the fields of each section. -/
structure Declared where
  start : Text
  delimiter : Text
  matchCase : Bool
  sections : List (String × List String)

/-- Why a document is not read. -/
inductive DocumentError where
  | malformed (reason : String)
  | raised (cause : Raised)
  deriving Repr

/-- The packages that settings are loaded with. -/
structure Packages where
  /-- Reads a document, `yaml.safe_load`. -/
  documents : Bytes → Except DocumentError Value
  /-- What overrides say of settings. -/
  overrides : Declared → Entries → Except Raised Entries
  /-- What variables say of settings; overrides may say how they are read. -/
  environment : Declared → Entries → Variables → Except Raised Entries
  /-- The entries of several sources, the strongest first, as one mapping. -/
  gather : List Entries → Entries
  validator : Validator

end SourceLens.Settings
