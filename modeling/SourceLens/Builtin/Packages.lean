import SourceLens.Builtin.Environment
import SourceLens.Builtin.Validator
import SourceLens.Builtin.Yaml.Reader

/-!
# Packages, built in

One way to read documents, to gather settings and to validate them, and a system that holds some
files: the settings can be loaded with these. What is proved of loading is proved of all packages
and systems, and these are among them.
-/

namespace SourceLens.Builtin

open Settings

/-- The text of a document, if its bytes are UTF-8. -/
def decode? (bytes : Bytes) : Option Text :=
  let text := Utf8.decode bytes
  if Utf8.encode text = bytes then some text else none

def document (bytes : Bytes) : Except DocumentError Value :=
  match decode? bytes with
  | none => .error (.raised (.other "UnicodeDecodeError" "invalid UTF-8"))
  | some text =>
    match Yaml.read text with
    | .ok value => .ok value
    | .error .malformed => .error (.malformed "malformed document")
    | .error (.noSuchScalar message) => .error (.raised (.wrong message))
    | .error .tooManyParts =>
      .error (.raised (.other "OverflowError" "int too large to convert to float"))

/-- The packages that are built in, among some instances. -/
def packages (instances : Instances) : Packages where
  documents := document
  overrides declared overrides := .ok (overrideEntries declared.sections overrides)
  environment declared overrides vars :=
    (environmentEntries declared.sections (.ofOverrides declared overrides) vars).mapError
      (.other "SettingsError")
  gather layers := layers.foldl (fun stronger layer => Entries.merge layer stronger) []
  validator := validator instances

/-- The packages that are built in, where there are no instances. -/
def plain : Packages := packages fun _ _ => none

/-- A system that holds some files, with the home directory of the one who asks and no other. -/
def system (directory home : String) (files : List (String × Text)) : System :=
  let file? := fun (path : Text) => (files.find? (·.1.toList = path)).map (·.2)
  { directory := .ok directory.toList
    status := fun path => .ok (if (file? path).isSome then .file else .absent)
    content := fun path => .ok (Utf8.encode ((file? path).getD []))
    homes := fun user => .ok (if user.isEmpty then some home.toList else none) }

end SourceLens.Builtin
