import SourceLens.Settings.Packages
import SourceLens.Text.LetterCase

/-!
# Options and overrides

What a caller gives beside files and variables: overrides of whole sections, and options that say
how the variables of the environment are read. An override names its section in any case, and of
several that name one section the first counts. Options have names of their own and are no settings.
-/

namespace SourceLens.Builtin

open Settings

/-- How variables are read. -/
structure Options where
  /-- What the names of all variables start with. -/
  start : Text
  /-- What stands between the parts of a name. If it is empty, names have no parts. -/
  delimiter : Text
  /-- The most parts that follow the section in a name. -/
  depth : Option Nat
  /-- Whether names that differ in case differ. -/
  matchCase : Bool
  /-- Whether a variable without a text counts as unset. -/
  skipEmpty : Bool
  /-- The text of a variable that stands for nothing. -/
  nullText : Option String

namespace Options

/-- A name in the case in which names are compared. -/
def fold (options : Options) (name : Text) : Text :=
  if options.matchCase then name else lower name

/-- The name of the variable for a section: the common start and the section, as it is compared. -/
def variableName (options : Options) (name : String) : Text :=
  options.fold (options.start ++ name.toList)

/-- The options for sources that settings are not taken from. They change nothing. -/
def idleNames : List String :=
  ["_nested_model_default_partial_update", "_env_file", "_env_file_encoding", "_env_parse_enums",
   "_secrets_dir", "_build_sources", "_cli_prog_name", "_cli_parse_args", "_cli_settings_source",
   "_cli_parse_none_str", "_cli_hide_none_type", "_cli_avoid_json", "_cli_enforce_required",
   "_cli_use_class_docs_for_groups", "_cli_exit_on_error", "_cli_prefix", "_cli_flag_prefix_char",
   "_cli_implicit_flags", "_cli_ignore_unknown_args", "_cli_kebab_case", "_cli_shortcuts"]

def variableNames : List String :=
  ["_case_sensitive", "_env_prefix", "_env_prefix_target", "_env_nested_delimiter",
   "_env_nested_max_split", "_env_ignore_empty", "_env_parse_none_str"]

/-- The value given for an option; null gives none. -/
def given? (overrides : Entries) (name : String) : Option Value :=
  match overrides.field? name with
  | some (.scalar .null) => none
  | found => found

/-- The number of parts that a value allows; less than one allows any number. -/
def depthOf? : Value → Option Nat
  | .scalar (.int n) => if 0 < n then some n.toNat else none
  | .scalar (.bool true) => some 1
  | _ => none

/-- Whether names start with the common start, by where it goes. -/
def hasStart (overrides : Entries) : Bool :=
  match given? overrides "_env_prefix_target" with
  | none => true
  | some target => target.asText? = some "variable" || target.asText? = some "all"

/-- The options among overrides. What is not given is as it was declared; an option that is to be a
text and is none counts as an empty one. -/
def ofOverrides (declared : Declared) (overrides : Entries) : Options :=
  let text := fun (name : String) (missing : Text) =>
    match given? overrides name with
    | none => missing
    | some value => (value.asText?.getD "").toList
  let flag := fun (name : String) (missing : Bool) =>
    ((given? overrides name).map fun v => !v.isVoid).getD missing
  { start := if hasStart overrides then text "_env_prefix" declared.start else []
    delimiter := text "_env_nested_delimiter" declared.delimiter
    depth := (given? overrides "_env_nested_max_split").bind depthOf?
    matchCase := flag "_case_sensitive" declared.matchCase
    skipEmpty := flag "_env_ignore_empty" false
    nullText := (given? overrides "_env_parse_none_str").bind Value.asText? }

end Options

def isOption : Scalar → Bool
  | .text s => Options.variableNames.contains s || Options.idleNames.contains s
  | _ => false

/-- Whether a key names a section, in any case. -/
def namesSection (sectionName : String) : Scalar → Bool
  | .text s => lower s.toList = sectionName.toList
  | _ => false

/-- The entries that overrides give: those of sections under the name of the section, and then those
that name neither a section nor an option. -/
def overrideEntries (sections : List (String × List String)) (overrides : Entries) : Entries :=
  let named := sections.filterMap fun (name, _) =>
    (overrides.find? fun (key, _) => namesSection name key).map fun (_, value) =>
      (Scalar.text name, value)
  let others := overrides.filter fun (key, _) =>
    !isOption key && !sections.any fun (name, _) => namesSection name key
  named ++ others

end SourceLens.Builtin
