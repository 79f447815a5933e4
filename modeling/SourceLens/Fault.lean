import SourceLens.Data.Display

/-!
# Faults

Everything that can go wrong with settings or with parsing has a numbered code, a message and
details. A cause says what went wrong, and the fault it makes words it.
-/

namespace SourceLens

/-- `ErrorCode`: the numbered kinds of fault: 2xxx for settings, 3xxx for parsing. -/
inductive FaultCode where
  | configParse
  | configInvalidValue
  | configFileNotFound
  | grammarUnavailable
  | parseFailed
  deriving DecidableEq, Repr

namespace FaultCode

def all : List FaultCode :=
  [configParse, configInvalidValue, configFileNotFound, grammarUnavailable, parseFailed]

def number : FaultCode → Nat
  | configParse => 2001
  | configInvalidValue => 2002
  | configFileNotFound => 2004
  | grammarUnavailable => 3001
  | parseFailed => 3002

/-- The name of a code, as logs show it. -/
def name : FaultCode → String
  | configParse => "CONFIG_PARSE_ERROR"
  | configInvalidValue => "CONFIG_INVALID_VALUE"
  | configFileNotFound => "CONFIG_FILE_NOT_FOUND"
  | grammarUnavailable => "PARSE_GRAMMAR_UNAVAILABLE"
  | parseFailed => "PARSE_FAILED"

def ofNumber? (n : Int) : Option FaultCode := all.find? fun code => (code.number : Int) = n

def unknownMessage (n : Int) : String := toString n ++ " is not a valid ErrorCode"

end FaultCode

/-- `PolyscanError`: a fault with its structured context. -/
structure Fault where
  code : FaultCode
  message : String
  retryable : Bool := false
  details : Value := .map []
  deriving Repr

namespace Fault

/-- The fault on one line. -/
def text (fault : Fault) : String :=
  "[" ++ toString fault.code.number ++ "] " ++ fault.code.name ++ ": " ++ fault.message

/-- `to_dict`: the fault as a mapping. -/
def toValue (fault : Fault) : Value :=
  .object [("code", .nat fault.code.number), ("error", .text fault.code.name),
    ("message", .text fault.message), ("retryable", .bool fault.retryable),
    ("details", fault.details)]

end Fault

/-- `parse_error`, `invalid_value` and `file_not_found`: what went wrong with settings. -/
inductive ConfigCause where
  /-- A settings file is no readable document. -/
  | unreadable (path reason : String)
  /-- A setting has a value that is not allowed. -/
  | invalidValue (field : String) (value : Value) (reason : String)
  /-- A settings file that must exist does not. -/
  | missingFile (path : String)
  deriving Repr

/-- `grammar_unavailable` and `parser_failed`: what went wrong with parsing a source. -/
inductive ParseCause where
  /-- There is no such grammar, or it cannot be loaded. -/
  | grammarUnavailable (grammar reason : String)
  /-- The parser rejects the source. -/
  | rejected (grammar reason : String)
  deriving DecidableEq, Repr

def ConfigCause.fault : ConfigCause → Fault
  | unreadable path reason =>
    { code := .configParse
      message := "Failed to parse config at " ++ path ++ ": " ++ reason
      details := .object [("path", .text path), ("reason", .text reason)] }
  | invalidValue field value reason =>
    { code := .configInvalidValue
      message := "Invalid value for '" ++ field ++ "': " ++ reason
      details := .object [("field", .text field), ("value", .text (String.ofList value.short)),
        ("reason", .text reason)] }
  | missingFile path =>
    { code := .configFileNotFound
      message := "Config file not found: " ++ path
      details := .object [("path", .text path)] }

def ParseCause.fault : ParseCause → Fault
  | grammarUnavailable grammar reason =>
    { code := .grammarUnavailable
      message := "Grammar not available: " ++ grammar ++ " (" ++ reason ++ ")"
      details := .object [("grammar", .text grammar), ("reason", .text reason)] }
  | rejected grammar reason =>
    { code := .parseFailed
      message := "Failed to parse " ++ grammar ++ " source: " ++ reason
      details := .object [("grammar", .text grammar), ("reason", .text reason)] }

end SourceLens
