import SourceLens.Data.Moment
import SourceLens.Decimal.Double

/-!
# Data values

What a document of settings, a log field or an error detail holds, as a finite tree: scalars, lists,
and mappings that keep their entries in order. An object that the program never looks into is a
scalar too.

Two mappings merge key by key, the second winning: where both hold a mapping under a key the two
are merged in turn, and everywhere else the value of the second replaces that of the first. Keys
keep the order of the first mapping, followed by the new keys of the second.
-/

namespace SourceLens

/-- An object that is not looked into, such as an instance of a class. -/
structure Other where
  /-- What tells it from all other objects. -/
  token : Nat
  /-- Its detailed form. -/
  detailed : String
  /-- Its short form. -/
  short : String
  /-- Whether it has forms at all. -/
  shown : Bool := true
  /-- Whether it counts as nothing. -/
  void : Bool := false
  deriving DecidableEq, Repr

/-- A value without parts. -/
inductive Scalar where
  | null
  | bool (b : Bool)
  | int (n : Int)
  | float (x : Double)
  | text (s : String)
  | moment (m : Moment)
  | other (o : Other)
  deriving DecidableEq, Repr

/-- What a scalar is as a key. Equal numbers are one key whatever their kind, truth values being
zero and one, and so are two times at one instant. -/
inductive Identity where
  | null
  | number (n : Int)
  /-- A number with a point that is no integer. -/
  | fraction (x : Double)
  | text (s : String)
  | moment (m : Moment)
  | instant (micros : Int)
  | other (token : Nat)
  deriving DecidableEq, Repr

def Scalar.identity : Scalar → Identity
  | .null => .null
  | .bool b => .number (if b then 1 else 0)
  | .int n => .number n
  | .float x =>
    match x.toInt? with
    | some n => .number n
    | none => .fraction x
  | .text s => .text s
  | .moment (.time day clock (some minutes)) => .instant (Moment.instant day clock minutes)
  | .moment m => .moment m
  | .other o => .other o.token

/-- The most digits of an integer that is read or written in base ten. -/
def Scalar.digitLimit : Nat := 4300

/-- A tree of scalars. -/
inductive Value where
  | scalar (s : Scalar)
  | list (items : List Value)
  | map (entries : List (Scalar × Value))
  deriving Repr

/-- The entries of a mapping, in order. -/
abbrev Entries := List (Scalar × Value)

namespace Entries

/-- The value under a key. -/
def get? (key : Scalar) : Entries → Option Value
  | [] => none
  | (k, v) :: rest => if k.identity = key.identity then some v else get? key rest

/-- Sets the value under a key: in place, and under the key that is there, if it is the same one,
else at the end. -/
def put (key : Scalar) (value : Value) : Entries → Entries
  | [] => [(key, value)]
  | (k, v) :: rest =>
    if k.identity = key.identity then (k, value) :: rest else (k, v) :: put key value rest

/-- Entries in which a key given twice keeps its first place and takes its last value. -/
def ofList (pairs : List (Scalar × Value)) : Entries :=
  pairs.foldl (fun entries (k, v) => put k v entries) []

/-- The value under a text key. -/
def field? (name : String) (entries : Entries) : Option Value := entries.get? (.text name)

end Entries

namespace Value

def null : Value := .scalar .null
def bool (b : Bool) : Value := .scalar (.bool b)
def int (n : Int) : Value := .scalar (.int n)
def nat (n : Nat) : Value := .scalar (.int n)
def float (x : Double) : Value := .scalar (.float x)
def text (s : String) : Value := .scalar (.text s)

/-- A mapping with text keys. -/
def object (fields : List (String × Value)) : Value :=
  .map (fields.map fun (name, value) => (.text name, value))

/-- A list of texts. -/
def texts (items : List String) : Value := .list (items.map text)

/-- The entries of a mapping, none for any other value. -/
def entries : Value → Entries
  | .map entries => entries
  | _ => []

/-- The items of a list, none for any other value. -/
def items : Value → List Value
  | .list items => items
  | _ => []

/-- The value under a text key of a mapping. -/
def field? (name : String) (value : Value) : Option Value := value.entries.field? name

def asText? : Value → Option String
  | .scalar (.text s) => some s
  | _ => none

def asInt? : Value → Option Int
  | .scalar (.int n) => some n
  | _ => none

def asBool? : Value → Option Bool
  | .scalar (.bool b) => some b
  | _ => none

/-- Whether a value counts as nothing: null, false, zero, an empty text, list or mapping. -/
def isVoid : Value → Bool
  | .scalar .null => true
  | .scalar (.bool b) => !b
  | .scalar (.int n) => n = 0
  | .scalar (.float x) => x.magnitude = 0
  | .scalar (.text s) => s.isEmpty
  | .scalar (.moment _) => false
  | .scalar (.other o) => o.void
  | .list items => items.isEmpty
  | .map entries => entries.isEmpty

end Value

mutual

/-- `_deep_merge`: the value that a second one makes of `base`. -/
def Value.merge (base : Value) : Value → Value
  | .scalar s => .scalar s
  | .list items => .list items
  | .map upper =>
    match base with
    | .map entries => .map (Entries.merge entries upper)
    | _ => .map upper

/-- `_deep_merge`: the entries of `base` overridden by those of a second mapping, one by one. -/
def Entries.merge (base : Entries) : List (Scalar × Value) → Entries
  | [] => base
  | entry :: upper => Entries.merge (Entries.mergeOne base entry) upper

/-- The entries of `base` with one of them overridden. -/
def Entries.mergeOne (base : Entries) : Scalar × Value → Entries
  | (key, value) =>
    match base.get? key with
    | some old => base.put key (Value.merge old value)
    | none => base.put key value

end

end SourceLens
