import SourceLens.Data.Value
import SourceLens.Decimal.Shortest
import SourceLens.Text.Quoted

/-!
# Values in messages

A message shows a value by its short form, in which a text stands for itself. Inside a list or a
mapping, and wherever texts must be told from other values, the detailed form is used, in which a
text is quoted.
-/

namespace SourceLens

def Scalar.detailed : Scalar → Text
  | .null => "None".toList
  | .bool true => "True".toList
  | .bool false => "False".toList
  | .int n => Text.ofInt n
  | .float x => x.text
  | .text s => Text.quoted s.toList
  | .moment m => m.detailed
  | .other o => o.detailed.toList

mutual

def Value.detailed : Value → Text
  | .scalar s => s.detailed
  | .list items => '[' :: Text.join ", ".toList (Value.detailedItems items) ++ [']']
  | .map entries => '\x7b' :: Text.join ", ".toList (Value.detailedEntries entries) ++ ['\x7d']

/-- The items of a list, each in its detailed form. -/
def Value.detailedItems : List Value → List Text
  | [] => []
  | item :: rest => Value.detailed item :: Value.detailedItems rest

/-- The entries of a mapping, each as key and value in their detailed forms. -/
def Value.detailedEntries : List (Scalar × Value) → List Text
  | [] => []
  | entry :: rest => Value.detailedEntry entry :: Value.detailedEntries rest

def Value.detailedEntry : Scalar × Value → Text
  | (key, value) => key.detailed ++ ": ".toList ++ Value.detailed value

end

/-- Whether a scalar can be shown: an integer with too many digits cannot. -/
def Scalar.isShown : Scalar → Bool
  | .int n => (Nat.toDigits 10 n.natAbs).length ≤ Scalar.digitLimit
  | .other o => o.shown
  | _ => true

mutual

def Value.isShown : Value → Bool
  | .scalar s => s.isShown
  | .list items => Value.areShown items
  | .map entries => Value.entriesShown entries

def Value.areShown : List Value → Bool
  | [] => true
  | item :: rest => Value.isShown item && Value.areShown rest

/-- Whether all entries of a mapping can be shown. -/
def Value.entriesShown : List (Scalar × Value) → Bool
  | [] => true
  | entry :: rest => Value.entryShown entry && Value.entriesShown rest

def Value.entryShown : Scalar × Value → Bool
  | (key, value) => key.isShown && Value.isShown value

end

/-- A value as a message shows it: a text stands for itself. -/
def Value.short : Value → Text
  | .scalar (.text s) => s.toList
  | .scalar (.moment m) => m.short
  | .scalar (.other o) => o.short.toList
  | value => value.detailed

end SourceLens
