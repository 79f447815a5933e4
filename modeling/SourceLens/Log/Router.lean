import SourceLens.Log.Line

/-!
# Routing the log

Events and messages from outside go along routes. A route drops what weighs less than its
threshold and hands the rest to its outlets, of which each has a threshold of its own. A route
without outlets ends at the outlet of last resort, which writes warnings and worse on the standard
error stream. Before the log is set up, events are written for reading on the standard output, and
messages have no outlet; afterwards both go to the outputs of the settings.
-/

namespace SourceLens.Log

open Settings

/-- One end of a route. -/
structure Outlet where
  destination : Destination
  format : LineFormat
  threshold : Nat

/-- A way from records to outlets. -/
structure Route where
  threshold : Nat
  outlets : List Outlet
  /-- How records are written where there is no outlet. -/
  fallback : LineFormat

/-- `configure_logging`, `_create_handler` and `_level_number`: where events and messages from
outside go. -/
structure Router where
  events : Route
  messages : Route

abbrev Written := List (Destination × Text)

def Outlet.lastResort (format : LineFormat) : Outlet :=
  { destination := .stderr, format, threshold := Level.warning.number }

def Route.ends (route : Route) : List Outlet :=
  if route.outlets.isEmpty then [.lastResort route.fallback] else route.outlets

/-- What a record leaves at the ends of a route. -/
def Route.send (route : Route) (record : Record) : Written :=
  let reached := fun (threshold : Nat) => decide (threshold ≤ record.level.number)
  if reached route.threshold then
    (route.ends.filter fun outlet => reached outlet.threshold).map fun outlet =>
      (outlet.destination, outlet.format.write record)
  else []

/-- The outlet of an output; without a level of its own it takes that of the whole log. -/
def Outlet.ofOutput (level : Level) (output : LogOutput) : Outlet :=
  { destination := output.destination
    format := .ofSettings output.format
    threshold := (output.level.getD level).number }

def Route.ofSettings (fallback : LineFormat) (logging : Logging) : Route :=
  { threshold := logging.level.number
    outlets := logging.outputs.map (Outlet.ofOutput logging.level)
    fallback }

namespace Router

def initial : Router :=
  { events := { threshold := 0
                outlets := [{ destination := .stdout
                              format := .console { event := 30, level := 9 }
                              threshold := 0 }]
                fallback := .mapping }
    messages := { threshold := Level.warning.number
                  outlets := []
                  fallback := .bare } }

def ofSettings (logging : Logging) : Router :=
  { events := .ofSettings .mapping logging, messages := .ofSettings .bare logging }

end Router

/-- What the settings of a log with one output on the standard error stream are made from. -/
def singleOutput (json : Bool) (level : Value) : Value :=
  let output : LogOutput := { format := if json then .json else .console }
  .object [("level", level), ("outputs", .list [output.toValue])]

/-- The lines written to a destination, without empty ones. -/
def Written.linesAt (written : Written) (destination : Destination) : List Text :=
  (written.filter (·.1 = destination)).flatMap fun (_, text) =>
    (Text.lines text).filter (! ·.isEmpty)

end SourceLens.Log
