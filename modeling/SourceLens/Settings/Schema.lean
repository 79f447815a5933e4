import SourceLens.Settings.Model
import SourceLens.Settings.Packages

/-!
# The models of settings

The fields of each model, with their defaults and the checks of the program, for whatever package
validates them.
-/

namespace SourceLens.Settings

/-- What is raised when an integer with too many digits is to be written. -/
def tooLongMessage : String :=
  "Exceeds the limit (4300 digits) for integer string conversion; "
    ++ "use sys.set_int_max_str_digits() to increase the limit"

/-- `validate_indent`: a width from one to sixteen. -/
def validateIndent (size : Int) : Except Raised Int :=
  if 1 ≤ size ∧ size ≤ 16 then .ok size
  else if Scalar.isShown (.int size) then
    .error (.wrong ("Indent size must be 1-16, got " ++ String.ofList (Text.ofInt size)))
  else .error (.wrong tooLongMessage)

/-- `validate_destination`: one of the two streams, or an absolute path. -/
def validateDestination (homes : Homes) (name : String) : Except Raised String :=
  if name = "stderr" ∨ name = "stdout" then .ok name
  else
    (expandUser homes name.toList).bind fun path =>
      if FilePath.isAbsolute path then .ok (String.ofList path)
      else .error (.wrong ("File destination must be absolute path: " ++ name))

namespace Validator

variable (validator : Validator) (homes : Homes)

/-- The names of all levels. -/
def level : Check := validator.choice (Level.all.map Level.name)

def outputFields : List Field :=
  [{ name := "format", missing := .text "console", check := validator.choice ["json", "console"] },
   { name := "destination", missing := .text "stderr",
     check := validator.text (validateDestination homes) },
   { name := "level", missing := .null, check := validator.nullable validator.level }]

def output : Check := validator.model "LogOutputConfig" (validator.outputFields homes)

def loggingFields : List Field :=
  [{ name := "level", missing := .text "INFO", check := validator.level },
   { name := "outputs", missing := .list [({} : LogOutput).toValue],
     check := validator.list (validator.output homes) }]

def logging : Check := validator.model "LoggingConfig" (validator.loggingFields homes)

def formattingFields : List Field :=
  [{ name := "indent_size", missing := .nat 4, check := validator.int validateIndent },
   { name := "html_indent_size", missing := .nat 2, check := validator.int validateIndent }]

def formatting : Check := validator.model "FormattingConfig" validator.formattingFields

/-- `PolyscanConfig`: its fields, which are those of `PolyscanSettings` too. -/
def sectionFields : List Field :=
  [{ name := "logging", missing := ({} : Logging).toValue, check := validator.logging homes },
   { name := "formatting", missing := ({} : Formatting).toValue, check := validator.formatting }]

def config : Check := validator.model "PolyscanConfig" (validator.sectionFields homes)

end Validator

/-- The sections of the settings and their keys, in order. -/
def sections : List (String × List String) :=
  [("logging", ["level", "outputs"]), ("formatting", ["indent_size", "html_indent_size"])]

/-- `_make_settings_class`: how the variables of the settings are named. -/
def declared : Declared where
  start := "POLYSCAN__".toList
  delimiter := "__".toList
  matchCase := false
  sections := sections

end SourceLens.Settings
