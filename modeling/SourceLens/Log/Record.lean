import SourceLens.Settings.Model

/-!
# Records of the log

A record is what one event leaves behind: its level and its entries in order. An event of a logger
starts with the name of the logger, if it has one, and the entries bound to it; the fields of the
event, the event, its level and its time follow. An entry given twice keeps its first place and
takes its last value, so the level and the time are always those of the event.
-/

namespace SourceLens.Log

open Settings

/-- `get_logger`: a source of events: a name, which may be empty, and entries that all its events
have. -/
structure Logger where
  name : String := ""
  bound : Entries := []

/-- One event of the log. -/
structure Record where
  level : Level
  entries : Entries

/-- The entries that all events of a logger start with. -/
def Logger.entries (logger : Logger) : Entries :=
  (if logger.name.isEmpty then [] else [(.text "logger", .text logger.name)]) ++ logger.bound

def eventEntry : Value → Entries
  | .scalar .null => []
  | event => [(.text "event", event)]

def closing (level : Level) (event : Value) (time : String) : Entries :=
  eventEntry event ++ [(.text "level", .text level.label), (.text "timestamp", .text time)]

def Record.ofEvent (logger : Logger) (level : Level) (event : Value) (fields : Entries)
    (time : String) : Record :=
  { level, entries := Entries.ofList (logger.entries ++ fields ++ closing level event time) }

def Record.ofMessage (level : Level) (message time : String) : Record :=
  { level, entries := closing level (.text message) time }

end SourceLens.Log
