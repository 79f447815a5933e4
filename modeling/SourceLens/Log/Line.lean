import SourceLens.Data.Display
import SourceLens.Data.Json
import SourceLens.Log.Record

/-!
# Lines of the log

A record is written as one JSON object, or for reading: time, level, event and logger in front,
then the other entries sorted by key, and traces on lines of their own. Where nothing says how it is
to be written, all its entries are shown as a mapping, or its event alone.
-/

namespace SourceLens.Log

open Settings

/-- The least widths of the event and of the level in a line for reading. -/
structure Columns where
  event : Nat := 0
  level : Nat := 0

/-- `_create_formatter`: how a record is written. -/
inductive LineFormat where
  | json
  | console (columns : Columns)
  /-- All entries, as a message shows a mapping. -/
  | mapping
  /-- The event alone. -/
  | bare

def LineFormat.ofSettings : LogFormat → LineFormat
  | .json => .json
  | .console => .console {}

def filled (width : Nat) (text : Text) : Text := text ++ Text.spaces (width - text.length)

def needsQuotes (c : Char) : Bool := " \t=\r\n\"'".toList.contains c

/-- The value of an entry: texts are quoted only where they must be. -/
def entryText : Value → Text
  | .scalar (.text s) => if s.toList.any needsQuotes then Text.quoted s.toList else s.toList
  | value => value.detailed

def keyText (key : Scalar) : Text := Value.short (.scalar key)

/-- The entries that have places of their own at the front of a line, each with its form. -/
def frontColumns (columns : Columns) : List (String × (Text → Text)) :=
  [("timestamp", id),
   ("level", fun text => '[' :: filled columns.level text ++ [']']),
   ("event", filled columns.event),
   ("logger", fun text => '[' :: text ++ [']']),
   ("logger_name", fun text => '[' :: text ++ [']'])]

def frontParts (columns : Columns) (entries : Entries) : List Text :=
  (frontColumns columns).filterMap fun (name, form) =>
    (entries.field? name).map fun value => form value.short

def traceKeys : List String := ["stack", "exception", "exc_info"]

/-- The entries without a place of their own, sorted by key. -/
def otherEntries (entries : Entries) : Entries :=
  let isFront := fun (key : Scalar) => (frontColumns {}).any fun (name, _) => key = .text name
  let isTrace := fun (key : Scalar) => traceKeys.any fun name => key = .text name
  (entries.filter fun (key, _) => !isFront key && !isTrace key).mergeSort
    fun a b => decide (String.ofList (keyText a.1) ≤ String.ofList (keyText b.1))

def otherParts (entries : Entries) : List Text :=
  (otherEntries entries).map fun (key, value) => keyText key ++ '=' :: entryText value

def given? (entries : Entries) (key : String) : Option Value :=
  match entries.field? key with
  | some (.scalar .null) => none
  | found => found

def traceRule : Text := '\n' :: '\n' :: List.replicate 79 '=' ++ ['\n']

/-- The traces after a line: the stack, a rule if an exception was announced, and the exception. -/
def traces (entries : Entries) : Text :=
  let exception := given? entries "exception"
  let announced := exception.isSome || ((given? entries "exc_info").map (!·.isVoid)).getD false
  let onLine := fun (value : Value) => '\n' :: value.short
  match given? entries "stack" with
  | none => (exception.map onLine).getD []
  | some stack =>
    onLine stack ++ (if announced then traceRule else []) ++ (exception.map onLine).getD []

/-- A line for reading: its parts with one space between them, and the traces after it. -/
def consoleLine (columns : Columns) (entries : Entries) : Text :=
  let parts := (frontParts columns entries ++ otherParts entries).filter (! ·.isEmpty)
  ((Text.join [' '] parts).reverse.dropWhile (· = ' ')).reverse ++ traces entries

/-- The keys that mark a record on its way to an outlet; no line shows them. -/
def markKeys : List String := ["_record", "_from_structlog"]

def Record.shown (record : Record) : Entries :=
  record.entries.filter fun (key, _) => !markKeys.any fun name => key = .text name

def LineFormat.write (format : LineFormat) (record : Record) : Text :=
  match format with
  | json => Json.write (.map record.shown)
  | console columns => consoleLine columns record.shown
  | mapping => Value.detailed (.map record.entries)
  | bare => ((record.entries.field? "event").map Value.short).getD []

end SourceLens.Log
