import SourceLens.Builtin.Json
import SourceLens.Builtin.Options

/-!
# Settings from the environment

A variable names a setting by its section and its key, with a delimiter between the parts and,
unless case counts, in any case. A variable that names a whole section holds a JSON document, and so
does the one for the outputs of the log; variables that name single settings override it. Further
parts make mappings inside a setting.
-/

namespace SourceLens.Builtin

open Settings

/-- What is said of a variable whose value cannot be read. -/
def variableMessage (sectionName : String) : String :=
  "error parsing value for field \"" ++ sectionName ++ "\" from source \"EnvSettingsSource\""

/-- The variables with their names as they are compared; of names that become one the last value
counts. -/
def foldNames (options : Options) (vars : Variables) : List (Text × String) :=
  (vars.filter fun (_, value) => !(options.skipEmpty && value.isEmpty)).foldl
    (fun seen (name, value) =>
      let key := options.fold name.toList
      if seen.any (·.1 = key) then seen.map fun (k, v) => if k = key then (k, value) else (k, v)
      else seen ++ [(key, value)]) []

/-- The parts of a name, cut at a delimiter at most `cuts` times. The first `skip` characters belong
to a delimiter and are passed over. -/
def cutParts (delimiter : Text) (skip cuts : Nat) : Text → List Text
  | [] => [[]]
  | c :: rest =>
    if skip ≠ 0 then cutParts delimiter (skip - 1) cuts rest
    else if cuts ≠ 0 && Text.startsWith delimiter (c :: rest) then
      [] :: cutParts delimiter (delimiter.length - 1) (cuts - 1) rest
    else
      match cutParts delimiter 0 cuts rest with
      | [] => [[c]]
      | part :: parts => (c :: part) :: parts

/-- The parts of what follows the section in a name. -/
def splitParts (options : Options) (name : Text) : List Text :=
  cutParts options.delimiter 0 ((options.depth.map (· - 1)).getD name.length) name

def partKey (part : Text) : Scalar := .text (String.ofList part)

/-- What a variable says of a setting. -/
inductive Assignment where
  | set (value : Value)
  /-- That it is nothing, unless another variable says more. -/
  | nothing

def Assignment.apply (key : Scalar) (entries : Entries) : Assignment → Entries
  | .set value => entries.put key value
  | .nothing =>
    match entries.get? key with
    | none | some (.map []) => entries.put key .null
    | some _ => entries

/-- Makes an assignment under a path of keys. Where something else than a mapping stands on the way,
nothing is set. -/
def setPath (assignment : Assignment) : List Text → Entries → Entries
  | [], entries => entries
  | [last], entries => assignment.apply (partKey last) entries
  | part :: rest, entries =>
    match entries.get? (partKey part) with
    | none => entries.put (partKey part) (.map (setPath assignment rest []))
    | some (.map inner) => entries.put (partKey part) (.map (setPath assignment rest inner))
    | some _ => entries

/-- Whether a variable holds a document: the one for the outputs of the log does, unless it is
empty. The common start of all names may be repeated in its key. -/
def holdsDocument (options : Options) (sectionName : String) (path : List Text) (raw : String) :
    Bool :=
  sectionName = "logging" && !raw.isEmpty
    && (path = ["outputs".toList] || path = [options.variableName "outputs"])

/-- What a variable says of the setting under a path, none if it cannot be read. -/
def assignment? (options : Options) (sectionName : String) (path : List Text) (raw : String) :
    Option Assignment :=
  if holdsDocument options sectionName path raw then
    (Json.read? raw.toList).map Assignment.set
  else if options.nullText = some raw then some .nothing
  else some (.set (.text raw))

/-- The settings of a section that variables name one by one, in order. -/
def namedSettings (options : Options) (sectionName : String) :
    List (Text × String) → Entries → Option Entries
  | [], entries => some entries
  | (name, raw) :: rest, entries =>
    let start := options.variableName sectionName ++ options.delimiter
    if !options.delimiter.isEmpty && Text.startsWith start name then
      let path := splitParts options (name.drop start.length)
      match assignment? options sectionName path raw with
      | some assignment =>
        namedSettings options sectionName rest (setPath assignment path entries)
      | none => none
    else namedSettings options sectionName rest entries

/-- A key with the case of the known key that it spells. -/
def knownCase (known : List String) : Scalar → Scalar
  | .text s => .text ((known.find? fun key => lower key.toList = lower s.toList).getD s)
  | other => other

/-- The mapping that a section is given. Unless case counts, its keys take the case of those that
are known. -/
def sectionMapping (options : Options) (known : List String) (entries : Entries) : Value :=
  if options.matchCase then .map entries
  else .map (Entries.ofList (entries.map fun (k, v) => (knownCase known k, v)))

/-- What the variable of a whole section says. -/
inductive WholeSection where
  | unset
  | nothing
  | document (value : Value)
  | unreadable

def wholeSection (options : Options) (vars : List (Text × String)) (sectionName : String) :
    WholeSection :=
  match vars.find? (·.1 = options.variableName sectionName) with
  | none => .unset
  | some (_, raw) =>
    if options.nullText = some raw then .nothing
    else
      match Json.read? raw.toList with
      | some value => .document value
      | none => .unreadable

/-- The value that the environment gives a section, none if it gives none. -/
def sectionValue (options : Options) (vars : List (Text × String)) (sectionName : String)
    (known : List String) : Except String (Option Value) :=
  let fail : Except String (Option Value) := .error (variableMessage sectionName)
  match wholeSection options vars sectionName with
  | .unreadable => fail
  | .nothing => .ok (some .null)
  | .document (.scalar .null) => .ok none
  | .document (.map entries) =>
    match namedSettings options sectionName vars [] with
    | none => fail
    | some named => .ok (some (sectionMapping options known (Entries.merge entries named)))
  | .document value => .ok (some value)
  | .unset =>
    match namedSettings options sectionName vars [] with
    | none => fail
    | some [] => .ok none
    | some entries => .ok (some (sectionMapping options known entries))

/-- The entries that the sections take from the environment. -/
def sectionEntries (options : Options) (vars : List (Text × String)) :
    List (String × List String) → Except String Entries
  | [] => .ok []
  | (name, known) :: rest => do
    let value ← sectionValue options vars name known
    let later ← sectionEntries options vars rest
    return (value.map fun v => (Scalar.text name, v)).toList ++ later

/-- The settings that the environment gives, by section. -/
def environmentEntries (sections : List (String × List String)) (options : Options)
    (vars : Variables) : Except String Entries :=
  sectionEntries options (foldNames options vars) sections

end SourceLens.Builtin
