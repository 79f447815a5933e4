import SourceLens.FilePath
import SourceLens.Handler

/-!
# Registries

A registry finds the handler for a file name or a language. For an extension the handler registered
last counts, for a language the one registered first; both listings keep the order of first
registration.
-/

namespace SourceLens

/-- A handler and the number that tells it from all others. -/
structure Registered where
  serial : Nat
  handler : Handler

/-- The event that an extension went from one handler to another. -/
structure Replacement where
  extension : String
  previous : String
  current : String
  deriving DecidableEq, Repr

/-- `LanguageRegistry`: handlers in order of registration, and the handler of each extension. -/
structure Registry where
  handlers : List Registered := []
  byExtension : List (String × Registered) := []

namespace Registry

def fold (extension : String) : String := String.ofList (lower extension.toList)

def lookup (table : List (String × Registered)) (extension : String) : Option Registered :=
  (table.find? (·.1 = extension)).map (·.2)

/-- Sets the handler of an extension: in place if the extension is there, else at the end. -/
def assign (extension : String) (entry : Registered) :
    List (String × Registered) → List (String × Registered)
  | [] => [(extension, entry)]
  | (e, old) :: rest =>
    if e = extension then (e, entry) :: rest else (e, old) :: assign extension entry rest

theorem lookup_assign (extension e : String) (entry : Registered)
    (table : List (String × Registered)) :
    lookup (assign extension entry table) e =
      if e = extension then some entry else lookup table e := by
  induction table with
  | nil =>
    by_cases h : e = extension
    · simp [assign, lookup, h]
    · simp [assign, lookup, h, Ne.symm h]
  | cons row rest ih =>
    obtain ⟨old, v⟩ := row
    by_cases ho : old = extension
    · subst ho
      by_cases h : e = old
      · simp [assign, lookup, h]
      · simp [assign, lookup, h, Ne.symm h]
    · by_cases h : e = old
      · subst h
        simp [assign, lookup, ho]
      · rw [assign, if_neg ho]
        rw [lookup] at ih ⊢
        rw [lookup]
        simp [Ne.symm h] at ih ⊢
        exact ih

/-- The event that assigning an extension makes, if it displaces another handler. -/
def replacement? (table : List (String × Registered)) (extension : String) (entry : Registered) :
    Option Replacement :=
  match lookup table extension with
  | some old =>
    if old.serial = entry.serial then none
    else some { extension, previous := old.handler.languageId, current := entry.handler.languageId }
  | none => none

def assignAll (entry : Registered) :
    List String → List (String × Registered) → List (String × Registered) × List Replacement
  | [], table => (table, [])
  | extension :: rest, table =>
    let key := fold extension
    let (final, events) := assignAll entry rest (assign key entry table)
    (final, (replacement? table key entry).toList ++ events)

/-- Registers a handler; also gives the events of the extensions that changed hands. -/
def register (registry : Registry) (entry : Registered) : Registry × List Replacement :=
  let (table, events) := assignAll entry entry.handler.descriptor.extensions registry.byExtension
  ({ handlers := registry.handlers ++ [entry], byExtension := table }, events)

def registerAll (registry : Registry) : List Registered → Registry × List Replacement
  | [] => (registry, [])
  | entry :: rest =>
    let (registry, events) := registry.register entry
    let (registry, later) := registry.registerAll rest
    (registry, events ++ later)

/-- `handler_for_file`: the handler for a file, by the suffix of its name in any case. -/
def handlerForFile (registry : Registry) (path : Text) : Option Registered :=
  let suffix := lower (FilePath.suffix path)
  if suffix.isEmpty then none else lookup registry.byExtension (String.ofList suffix)

/-- `handler_for_language_id`: the handler for a language: the first that goes by its name. -/
def handlerForLanguage (registry : Registry) (languageId : String) : Option Registered :=
  registry.handlers.find? (·.handler.languageId = languageId)

/-- `supported_extensions`: the extensions with a handler, in order of first registration. -/
def extensions (registry : Registry) : List String := registry.byExtension.map (·.1)

/-- `supported_language_ids`: the names of the languages, each once, in order of first
registration. -/
def languageIds (registry : Registry) : List String :=
  (registry.handlers.map (·.handler.languageId)).foldl
    (fun seen name => if seen.contains name then seen else seen ++ [name]) []

/-- The number of registrations. -/
def size (registry : Registry) : Nat := registry.handlers.length

def description (registry : Registry) : String :=
  "LanguageRegistry(" ++ String.intercalate ", " registry.languageIds ++ ")"

/-- The handlers of the five languages, in the order in which they are registered. -/
def standardHandlers (indentSize markupIndentSize : Nat) : List Handler :=
  [{ language := .typescript, indentSize }, { language := .python, indentSize },
   { language := .javascript, indentSize }, { language := .css, indentSize },
   { language := .html, indentSize := markupIndentSize }]

def number (first : Nat) : List Handler → List Registered
  | [] => []
  | handler :: rest => { serial := first, handler } :: number (first + 1) rest

/-- `create_default_registry`: the registry of the five languages. -/
def standard (indentSize markupIndentSize : Nat) : Registry × List Replacement :=
  ({} : Registry).registerAll (number 0 (standardHandlers indentSize markupIndentSize))

end Registry

end SourceLens
