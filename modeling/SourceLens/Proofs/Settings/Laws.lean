import SourceLens.Proofs.Data.Tidy
import SourceLens.Settings.Schema

/-!
# What packages keep to

The facts about packages that the program relies on (`Validator.Lawful`, `Packages.Lawful`). What is
proved of loading is proved of all packages that keep to them. They say which values are accepted
and what an accepted value is dumped as, when an error of the program's own checks comes through,
and on what a verdict depends; of what a violation says they say nothing. A mapping that a package
gives holds every key once, as do the mappings in it, and sources are merged with the stronger one
winning.

An instance of the class of a model is taken over as it is, whatever it holds by then. Only where it
is said so (`Validator.Made`) is every instance one that validation has made.
-/

namespace SourceLens.Settings

/-- Validation ends with an error that a check raised. -/
def Raises {α : Type} (result : Except Failure α) : Prop :=
  ∃ cause, result = .error (.raised cause)

/-- What the program relies on in the package that validates. -/
structure Validator.Lawful (validator : Validator) : Prop where
  intOf_int (n : Int) : validator.intOf (.int n) = some n
  textOf_text (s : String) : validator.textOf (.text s) = some s
  itemsOf_list (items : List Value) : validator.itemsOf (.list items) = some items
  entriesOf_map (entries : Entries) : validator.entriesOf (.map entries) = some entries
  isName_text (name : String) : validator.isName (.text name) = true
  isName_congr {a b : Scalar} : a.identity = b.identity → validator.isName a = validator.isName b
  /-- A mapping is no instance. -/
  instanceOf_map (name : String) (entries : Entries) :
    validator.instanceOf name (.map entries) = none
  int_ok {own : Int → Except Raised Int} {value : Value} {dumped : Dumped} :
    validator.int own value = .ok dumped
      ↔ ∃ n m, validator.intOf value = some n ∧ own n = .ok m ∧ dumped = .ok (.int m)
  int_raises {own : Int → Except Raised Int} {value : Value} :
    Raises (validator.int own value)
      ↔ ∃ n kind message, validator.intOf value = some n ∧ own n = .error (.other kind message)
  text_ok {own : String → Except Raised String} {value : Value} {dumped : Dumped} :
    validator.text own value = .ok dumped
      ↔ ∃ s t, validator.textOf value = some s ∧ own s = .ok t ∧ dumped = .ok (.text t)
  text_raises {own : String → Except Raised String} {value : Value} :
    Raises (validator.text own value)
      ↔ ∃ s kind message, validator.textOf value = some s ∧ own s = .error (.other kind message)
  choice_ok {names : List String} {value : Value} {dumped : Dumped} :
    validator.choice names value = .ok dumped → ∃ name ∈ names, dumped = .ok (.text name)
  choice_name {names : List String} {name : String} :
    name ∈ names → validator.choice names (.text name) = .ok (.ok (.text name))
  choice_raises (names : List String) (value : Value) : ¬Raises (validator.choice names value)
  nullable_null (check : Check) : validator.nullable check .null = .ok (.ok .null)
  nullable_value {check : Check} {value : Value} :
    value ≠ .null → validator.nullable check value = check value
  list_ok {check : Check} {value : Value} {dumped : Dumped} :
    validator.list check value = .ok dumped
      ↔ ∃ items dumps, validator.itemsOf value = some items ∧ items.map check = dumps.map .ok
        ∧ dumped = (Dumped.all dumps).map Value.list
  list_raises {check : Check} {value : Value} :
    Raises (validator.list check value)
      ↔ ∃ items, validator.itemsOf value = some items ∧ ∃ item ∈ items, Raises (check item)
  model_instance {name : String} {fields : List Field} {value : Value} {dumped : Dumped} :
    validator.instanceOf name value = some dumped → validator.model name fields value = .ok dumped
  model_ok {name : String} {fields : List Field} {value : Value} {dumped : Dumped} :
    validator.instanceOf name value = none →
    (validator.model name fields value = .ok dumped
      ↔ ∃ entries dumps, validator.entriesOf value = some entries
        ∧ fields.map (·.outcome entries) = dumps.map .ok ∧ dumped = Field.record fields dumps)
  model_raises {name : String} {fields : List Field} {value : Value} :
    validator.instanceOf name value = none →
    (Raises (validator.model name fields value)
      ↔ ∃ entries, validator.entriesOf value = some entries
        ∧ ∃ field ∈ fields, Raises (field.outcome entries))
  /-- What stands under keys that are no fields does not count. -/
  model_congr {name : String} {fields : List Field} {a b : Entries} :
    (∀ field ∈ fields, a.field? field.name = b.field? field.name) →
    validator.model name fields (.map a) = validator.model name fields (.map b)
  settings_ok {fields : List Field} {entries : Entries} {dumped : Dumped} :
    validator.settings fields entries = .ok dumped
      ↔ Field.unknown fields entries = [] ∧ ∃ dumps,
        fields.map (·.outcome entries) = dumps.map .ok ∧ dumped = Field.record fields dumps
  settings_raises {fields : List Field} {entries : Entries} :
    Raises (validator.settings fields entries)
      ↔ (∃ entry ∈ entries, validator.isName entry.1 = false)
        ∨ ∃ field ∈ fields, Raises (field.outcome entries)
  settings_congr {fields : List Field} {a b : Entries} :
    (∀ field ∈ fields, field.outcome a = field.outcome b) →
    Field.unknown fields a = Field.unknown fields b →
    validator.settings fields a = validator.settings fields b

/-- What the program relies on in all packages. -/
structure Packages.Lawful (packages : Packages) : Prop where
  validator : packages.validator.Lawful
  documents {bytes : Bytes} {entries : Entries} :
    packages.documents bytes = .ok (.map entries) → entries.Tidy
  overrides {given entries : Entries} :
    given.Tidy → packages.overrides declared given = .ok entries → entries.Tidy
  environment {given entries : Entries} {vars : Variables} :
    packages.environment declared given vars = .ok entries → entries.Tidy
  gather (layers : List Entries) :
    packages.gather layers = layers.foldl (fun stronger layer => Entries.merge layer stronger) []

/-- Every instance of a class of settings is one that validation has made from some entries. -/
structure Validator.Made (validator : Validator) (homes : Homes) : Prop where
  output {value : Value} {dumped : Dumped} :
    validator.instanceOf "LogOutputConfig" value = some dumped →
    ∃ entries : Entries, validator.output homes (.map entries) = .ok dumped
  logging {value : Value} {dumped : Dumped} :
    validator.instanceOf "LoggingConfig" value = some dumped →
    ∃ entries : Entries, validator.logging homes (.map entries) = .ok dumped
  formatting {value : Value} {dumped : Dumped} :
    validator.instanceOf "FormattingConfig" value = some dumped →
    ∃ entries : Entries, validator.formatting (.map entries) = .ok dumped
  config {value : Value} {dumped : Dumped} :
    validator.instanceOf "PolyscanConfig" value = some dumped →
    ∃ entries : Entries, validator.config homes (.map entries) = .ok dumped

end SourceLens.Settings
