import SourceLens.Data.Value

/-!
# Settings

The settings of the program: how much is logged and where to, and how wide indentation is. Every
setting has a default, and settings can be shown as a value.
-/

namespace SourceLens.Settings

/-- `LogLevel`: how grave an event is. -/
inductive Level where
  | debug
  | info
  | warning
  | error
  | critical
  deriving DecidableEq, Repr

namespace Level

def all : List Level := [debug, info, warning, error, critical]

/-- The name of a level in settings. -/
def name : Level → String
  | debug => "DEBUG"
  | info => "INFO"
  | warning => "WARNING"
  | error => "ERROR"
  | critical => "CRITICAL"

def label : Level → String
  | debug => "debug"
  | info => "info"
  | warning => "warning"
  | error => "error"
  | critical => "critical"

def number : Level → Nat
  | debug => 10
  | info => 20
  | warning => 30
  | error => 40
  | critical => 50

def ofName? (name : String) : Option Level := all.find? (·.name = name)

theorem ofName?_name (level : Level) : ofName? level.name = some level := by
  cases level <;> decide

def ofLabel? (label : String) : Option Level := all.find? (·.label = label)

end Level

/-- How log lines look. -/
inductive LogFormat where
  | json
  | console
  deriving DecidableEq, Repr

namespace LogFormat

/-- The name of a format. -/
def name : LogFormat → String
  | json => "json"
  | console => "console"

def ofName? (name : String) : Option LogFormat := [json, console].find? (·.name = name)

theorem ofName?_name (format : LogFormat) : ofName? format.name = some format := by
  cases format <;> decide

end LogFormat

/-- Where log lines go. -/
inductive Destination where
  | stderr
  | stdout
  | file (path : String)
  deriving DecidableEq, Repr

/-- A destination as it is written. -/
def Destination.name : Destination → String
  | stderr => "stderr"
  | stdout => "stdout"
  | file path => path

/-- `LogOutputConfig`: one output of the log; without a level of its own it takes that of the whole
log. -/
structure LogOutput where
  format : LogFormat := .console
  destination : Destination := .stderr
  level : Option Level := none
  deriving DecidableEq, Repr

/-- `LoggingConfig`: the settings of the log. -/
structure Logging where
  level : Level := .info
  outputs : List LogOutput := [{}]
  deriving DecidableEq, Repr

/-- `FormattingConfig`: the settings of indentation. -/
structure Formatting where
  /-- Spaces a level in sources. -/
  indentSize : Nat := 4
  /-- Spaces a level in marked-up documents. -/
  htmlIndentSize : Nat := 2
  deriving DecidableEq, Repr

/-- `PolyscanConfig`: all settings. -/
structure Config where
  logging : Logging := {}
  formatting : Formatting := {}
  deriving DecidableEq, Repr

def Level.toValue? : Option Level → Value
  | some level => .text level.name
  | none => .null

/-- An output as a value. -/
def LogOutput.toValue (output : LogOutput) : Value :=
  .object [("format", .text output.format.name), ("destination", .text output.destination.name),
    ("level", Level.toValue? output.level)]

/-- The settings of the log as a value. -/
def Logging.toValue (logging : Logging) : Value :=
  .object [("level", .text logging.level.name),
    ("outputs", .list (logging.outputs.map LogOutput.toValue))]

/-- The settings of indentation as a value. -/
def Formatting.toValue (formatting : Formatting) : Value :=
  .object [("indent_size", .nat formatting.indentSize),
    ("html_indent_size", .nat formatting.htmlIndentSize)]

/-- All settings as a value. -/
def Config.toValue (config : Config) : Value :=
  .object [("logging", config.logging.toValue), ("formatting", config.formatting.toValue)]

def Destination.ofName (name : String) : Destination :=
  if name = "stderr" then .stderr else if name = "stdout" then .stdout else .file name

def LogOutput.ofValue? (value : Value) : Option LogOutput := do
  let format ← ((← value.field? "format").asText?).bind LogFormat.ofName?
  let destination ← (← value.field? "destination").asText?
  let level ← match ← value.field? "level" with
    | .scalar .null => some none
    | level => (level.asText?.bind Level.ofName?).map some
  return { format, destination := .ofName destination, level }

/-- The settings of the log that a value shows. -/
def Logging.ofValue? (value : Value) : Option Logging := do
  let level ← ((← value.field? "level").asText?).bind Level.ofName?
  let outputs ← (← value.field? "outputs").items.mapM LogOutput.ofValue?
  return { level, outputs }

/-- The settings of indentation that a value shows. -/
def Formatting.ofValue? (value : Value) : Option Formatting := do
  let indent ← (← value.field? "indent_size").asInt?
  let htmlIndent ← (← value.field? "html_indent_size").asInt?
  return { indentSize := indent.toNat, htmlIndentSize := htmlIndent.toNat }

end SourceLens.Settings
