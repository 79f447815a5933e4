import SourceLens.Builtin.IntegerText
import SourceLens.Settings.Packages

/-!
# Validation, built in

Values are read as the fields of a model ask for it. Keys that are no fields are passed over, except
at the top. A number may also be given as a truth value, as a number with a point whose fraction is
zero, or as text. All violations of a value are reported, in the order of the fields.
-/

namespace SourceLens.Builtin

open Settings

/-- The rules that a value can break. -/
inductive Rule where
  | mapping (model : String)
  | list
  | text
  | choice (choices : List String)
  | integer
  | integerText
  | integerTooLong
  | wholeNumber
  | finiteNumber
  | knownKey
  /-- A rule of the program, with what it says. -/
  | own (message : String)
  deriving DecidableEq, Repr

/-- Quoted choices in a row, the last after `or`. -/
def choicesText : List String → String
  | [] => ""
  | [a] => "'" ++ a ++ "'"
  | [a, b] => "'" ++ a ++ "' or '" ++ b ++ "'"
  | a :: rest => "'" ++ a ++ "', " ++ choicesText rest

namespace Rule

/-- The name of a rule in reports. -/
def code : Rule → String
  | mapping _ => "model_type"
  | list => "list_type"
  | text => "string_type"
  | choice _ => "literal_error"
  | integer => "int_type"
  | integerText => "int_parsing"
  | integerTooLong => "int_parsing_size"
  | wholeNumber => "int_from_float"
  | finiteNumber => "finite_number"
  | knownKey => "extra_forbidden"
  | own _ => "value_error"

/-- What is said of a value that breaks a rule. -/
def message : Rule → String
  | mapping model => "Input should be a valid dictionary or instance of " ++ model
  | list => "Input should be a valid list"
  | text => "Input should be a valid string"
  | choice choices => "Input should be " ++ choicesText choices
  | integer => "Input should be a valid integer"
  | integerText => "Input should be a valid integer, unable to parse string as an integer"
  | integerTooLong => "Unable to parse input string as an integer, exceeded maximum size"
  | wholeNumber => "Input should be a valid integer, got a number with a fractional part"
  | finiteNumber => "Input should be a finite number"
  | knownKey => "Extra inputs are not permitted"
  | own message => "Value error, " ++ message

end Rule

abbrev Checked (α : Type) := Except Failure α

namespace Checked

variable {α β : Type}

def violation (rule : Rule) (input : Value) : Checked α :=
  .error (.invalid { code := rule.code, message := rule.message, place := [], input } [])

def under (step : Step) : Checked α → Checked α
  | .error (.invalid first rest) =>
    .error (.invalid (first.under step) (rest.map (Violation.under step)))
  | .error (.raised cause) => .error (.raised cause)
  | .ok a => .ok a

/-- Both of two results. The violations of both are kept; an error that was raised ends all. -/
def both : Checked α → Checked β → Checked (α × β)
  | .ok a, .ok b => .ok (a, b)
  | .error (.raised cause), _ => .error (.raised cause)
  | _, .error (.raised cause) => .error (.raised cause)
  | .error (.invalid a as), .error (.invalid b bs) => .error (.invalid a (as ++ b :: bs))
  | .error a, .ok _ => .error a
  | .ok _, .error b => .error b

def all : List (Checked α) → Checked (List α)
  | [] => .ok []
  | first :: rest => (both first (all rest)).map fun (a, as) => a :: as

def ofRaised (input : Value) : Except Raised Value → Checked Dumped
  | .ok value => .ok (.ok value)
  | .error (.wrong message) => violation (.own message) input
  | .error (.other kind message) => .error (.raised (.other kind message))

end Checked

/-- The largest size of a number with a point that is read as an integer. -/
def wholeLimit : Nat := Nat.pow 2 63

def readInt (value : Value) : Except Rule Int :=
  match value with
  | .scalar (.int n) => .ok n
  | .scalar (.bool b) => .ok (if b then 1 else 0)
  | .scalar (.float x) =>
    if x.isNaN || x.isInfinite then .error .finiteNumber
    else
      match x.toInt? with
      | some n => if n.natAbs < wholeLimit then .ok n else .error .integerTooLong
      | none => .error .wholeNumber
  | .scalar (.text s) =>
    match IntegerText.read s.toList with
    | .value n => .ok n
    | .tooLong => .error .integerTooLong
    | .malformed => .error .integerText
  | _ => .error .integer

def checkInt (own : Int → Except Raised Int) (value : Value) : Checked Dumped :=
  match readInt value with
  | .ok n => .ofRaised value ((own n).map Value.int)
  | .error rule => .violation rule value

def checkText (own : String → Except Raised String) (value : Value) : Checked Dumped :=
  match value.asText? with
  | some s => .ofRaised value ((own s).map Value.text)
  | none => .violation .text value

def checkChoice (names : List String) (value : Value) : Checked Dumped :=
  match value.asText? with
  | some s => if s ∈ names then .ok (.ok (.text s)) else .violation (.choice names) value
  | none => .violation (.choice names) value

def checkNullable (check : Check) (value : Value) : Checked Dumped :=
  match value with
  | .scalar .null => .ok (.ok .null)
  | _ => check value

/-- Items with their numbers, the first of which is `i`, each checked. -/
def checkItems (check : Check) : Nat → List Value → List (Checked Dumped)
  | _, [] => []
  | i, item :: rest => (Checked.under (.index i) (check item)) :: checkItems check (i + 1) rest

def checkList (check : Check) (value : Value) : Checked Dumped :=
  match value with
  | .list items =>
    (Checked.all (checkItems check 0 items)).map fun dumps => (Dumped.all dumps).map Value.list
  | _ => .violation .list value

def checkFields (fields : List Field) (entries : Entries) : Checked (List Dumped) :=
  Checked.all (fields.map fun field => Checked.under (.key field.name) (field.outcome entries))

/-- The instances of the classes of models: the dump of the one with a token. -/
abbrev Instances := String → Nat → Option Value

def instanceOf (instances : Instances) (name : String) : Value → Option Dumped
  | .scalar (.other o) => (instances name o.token).map .ok
  | _ => none

def makeModel (name : String) (fields : List Field) (value : Value) : Checked Dumped :=
  match value with
  | .map entries => (checkFields fields entries).map (Field.record fields)
  | _ => .violation (.mapping name) value

def checkModel (instances : Instances) (name : String) (fields : List Field) (value : Value) :
    Checked Dumped :=
  match instanceOf instances name value with
  | some dumped => .ok dumped
  | none => makeModel name fields value

def isTextKey : Scalar → Bool
  | .text _ => true
  | _ => false

def checkKeys (fields : List Field) (entries : Entries) : Checked Unit :=
  (Checked.all ((Field.unknown fields entries).map fun (key, value) =>
    Checked.under (.key (String.ofList (Value.short (.scalar key))))
      (.violation .knownKey value : Checked Unit))).map fun _ => ()

def checkSettings (fields : List Field) (entries : Entries) : Checked Dumped :=
  if entries.all fun (key, _) => isTextKey key then
    (Checked.both (checkFields fields entries) (checkKeys fields entries)).map
      fun (dumps, _) => Field.record fields dumps
  else .error (.raised (.other "TypeError" "keywords must be strings"))

/-- The entries of a mapping, none for any other value. -/
def entriesOf : Value → Option Entries
  | .map entries => some entries
  | _ => none

/-- The items of a list, none for any other value. -/
def itemsOf : Value → Option (List Value)
  | .list items => some items
  | _ => none

/-- The validation that is built in, among some instances. -/
def validator (instances : Instances) : Validator where
  int := checkInt
  text := checkText
  choice := checkChoice
  nullable := checkNullable
  list := checkList
  model := checkModel instances
  settings := checkSettings
  intOf value := (readInt value).toOption
  textOf := Value.asText?
  itemsOf := itemsOf
  entriesOf := entriesOf
  instanceOf := instanceOf instances
  isName := isTextKey

end SourceLens.Builtin
