import SourceLens.Indented.Edit
import SourceLens.Indented.Format
import SourceLens.Markup.Edit
import SourceLens.Markup.Format
import SourceLens.Script.Analysis
import SourceLens.Script.Edit
import SourceLens.Script.Format
import SourceLens.Stylesheet.Edit
import SourceLens.Stylesheet.Format

/-!
# Handlers

A handler answers the same questions about a source whatever its language: what it imports and
depends on, which functions and other entries it has, whether it is well formed, and how it looks
formatted or edited. No question fails: a source that cannot be parsed gets the empty answer.
-/

namespace SourceLens

/-- The languages. -/
inductive Language where
  | typescript
  | javascript
  | python
  | css
  | html
  deriving DecidableEq, Repr

namespace Language

def all : List Language := [typescript, javascript, python, css, html]

/-- The name of a language. -/
def name : Language → String
  | typescript => "typescript"
  | javascript => "javascript"
  | python => "python"
  | css => "css"
  | html => "html"

def ofName? (name : String) : Option Language := all.find? (·.name = name)

/-- The descriptor of a language. -/
def descriptor : Language → Descriptor
  | typescript => .typescript
  | javascript => .javascript
  | python => .python
  | css => .css
  | html => .html

def handlerName : Language → String
  | typescript => "TypeScriptHandler"
  | javascript => "JavaScriptHandler"
  | python => "PythonHandler"
  | css => "CSSHandler"
  | html => "HTMLHandler"

end Language

/-- `LanguageHandler`: a language with its indentation width and the descriptor that it goes by. -/
structure Handler where
  language : Language
  indentSize : Nat := 4
  descriptor : Descriptor := language.descriptor

namespace Handler

/-- The name that the handler goes by. -/
def languageId (handler : Handler) : String := handler.descriptor.languageId

def description (handler : Handler) : String :=
  handler.language.handlerName ++ "(language_id="
    ++ String.ofList (Text.quoted handler.languageId.toList) ++ ")"

/-- The specifiers that the import patterns find. -/
def imports (handler : Handler) (text : Text) : List Text := handler.descriptor.imports text

/-- The dependencies of a source, each once. -/
def dependencies (handler : Handler) (parser : Parser) (text : Text) : Logged (List Text) :=
  match handler.language with
  | .typescript => Script.dependencies parser .typescript text
  | .javascript => Script.dependencies parser .javascript text
  | .python => pure (Indented.dependencies text)
  | .css => Stylesheet.dependencies parser text
  | .html => Markup.dependencies parser text

/-- The functions of a source with their complexity. -/
def functions (handler : Handler) (parser : Parser) (text : Text) : Logged (List FunctionInfo) :=
  match handler.language with
  | .typescript => Script.functions parser .typescript text
  | .javascript => Script.functions parser .javascript text
  | .python => pure (Indented.functions text)
  | .css => Stylesheet.functions parser handler.descriptor text
  | .html => Markup.functions parser handler.descriptor text

/-- The entries of a source, in order. -/
def entries (handler : Handler) (parser : Parser) (text : Text) : Logged (List OutlineEntry) :=
  match handler.language with
  | .typescript => Script.outline parser .typescript text
  | .javascript => Script.outline parser .javascript text
  | .python => pure (Indented.outline text)
  | .css => Stylesheet.outline parser text
  | .html => Markup.outline parser text

/-- The diagnostics of a source that may have no tree. -/
def diagnoseWith (handler : Handler) (diagnose : Parsed → List Diagnostic)
    (parsed : Logged (Option Parsed)) : Logged (List Diagnostic) := do
  match ← parsed with
  | none =>
    let message := "Unable to parse ".toList ++ handler.languageId.toList ++ " source".toList
    return [{ line := 0, column := 0, message }]
  | some parsed => return diagnose parsed

/-- The syntax problems of a source. -/
def diagnose (handler : Handler) (parser : Parser) (text : Text) : Logged (List Diagnostic) :=
  match handler.language with
  | .typescript => handler.diagnoseWith Parsed.diagnostics (Script.parse parser .typescript text)
  | .javascript => handler.diagnoseWith Parsed.diagnostics (Script.parse parser .javascript text)
  | .python => pure (Indented.diagnose text)
  | .css => handler.diagnoseWith Parsed.diagnostics (Stylesheet.parse parser text)
  | .html => handler.diagnoseWith Markup.diagnoseParsed (Markup.parse parser text)

/-- `validate_syntax`: whether a source has no syntax problem. -/
def syntaxValid (handler : Handler) (parser : Parser) (text : Text) : Logged Bool := do
  return (← handler.diagnose parser text).isEmpty

/-- Whether the imports of a source are where, and what, they should be. -/
def importsValid (handler : Handler) (parser : Parser) (text : Text) : Logged Bool :=
  match handler.language with
  | .typescript => Script.importsValid parser .typescript text
  | .javascript => Script.importsValid parser .javascript text
  | .python => pure (Indented.importsValid text)
  | .css => pure (Stylesheet.importsValid text)
  | .html => Markup.importsValid parser text

/-- Whether a source keeps the structural rule of its language. -/
def structureValid (handler : Handler) (parser : Parser) (text : Text) : Logged Bool :=
  match handler.language with
  | .typescript => Script.structureValid parser .typescript text
  | .javascript => Script.structureValid parser .javascript text
  | .python => pure (Indented.structureValid text)
  | .css => Stylesheet.structureValid parser text
  | .html => Markup.structureValid parser text

/-- Statements that import dependencies. -/
def generateImports (handler : Handler) (deps : List Text) : Text :=
  match handler.language with
  | .typescript => Script.generateImports .typescript deps
  | .javascript => Script.generateImports .javascript deps
  | .python => Indented.generateImports deps
  | .css => Stylesheet.generateImports deps
  | .html => Markup.generateImports deps

/-- A function; what is given is rendered as it is. -/
def generateFunction (handler : Handler) (name : Text) (params : List Text)
    (returnType : Option Text) (body : Text) : Text :=
  match handler.language with
  | .typescript =>
    Script.generateFunction .typescript handler.indentSize name params returnType body
  | .javascript =>
    Script.generateFunction .javascript handler.indentSize name params returnType body
  | .python => Indented.generateFunction handler.indentSize name params returnType body
  | .css => Stylesheet.generateFunction handler.indentSize name params body
  | .html => Markup.generateFunction handler.indentSize name params body

/-- A class; what is given is rendered as it is. -/
def generateClass (handler : Handler) (name : Text) (properties methods : List Text) : Text :=
  match handler.language with
  | .typescript => Script.generateClass .typescript handler.indentSize name properties methods
  | .javascript => Script.generateClass .javascript handler.indentSize name properties methods
  | .python => Indented.generateClass handler.indentSize name properties methods
  | .css => Stylesheet.generateClass handler.indentSize name properties
  | .html => Markup.generateClass handler.indentSize name properties

/-- A function whose body is the text. -/
def wrap (handler : Handler) (text name : Text) : Text :=
  match handler.language with
  | .typescript | .javascript => Script.wrap handler.indentSize text name
  | .python => Indented.wrap handler.indentSize text name
  | .css => Stylesheet.wrap handler.indentSize text name
  | .html => Markup.wrap handler.indentSize text name

/-- The text with the dependencies that it lacks. -/
def injectImports (handler : Handler) (parser : Parser) (text : Text) (deps : List Text) :
    Logged Text :=
  match handler.language with
  | .typescript => Script.injectImports parser .typescript handler.descriptor text deps
  | .javascript => Script.injectImports parser .javascript handler.descriptor text deps
  | .python => pure (Indented.injectImports handler.descriptor text deps)
  | .css => pure (Stylesheet.injectImports handler.descriptor text deps)
  | .html => Markup.injectImports parser handler.indentSize text deps

/-- The formatted text. -/
def format (handler : Handler) (parser : Parser) (text : Text) : Logged Text :=
  match handler.language with
  | .typescript => Script.format parser .typescript handler.indentSize text
  | .javascript => Script.format parser .javascript handler.indentSize text
  | .python => pure (Indented.format handler.indentSize text)
  | .css => Stylesheet.format parser handler.indentSize text
  | .html => Markup.format parser handler.indentSize text

/-- `get_file_structure`: the outline of a document for a host; the one of a marked-up document is
left empty. -/
def outline (handler : Handler) (parser : Parser) (text : Text) : Logged (List OutlineEntry) :=
  match handler.language with
  | .html => pure []
  | _ => handler.entries parser text

/-- All findings about a document. -/
def analyze (handler : Handler) (parser : Parser) (text : Text) : Logged Analysis := do
  let dependencies ← handler.dependencies parser text
  let outline ← handler.outline parser text
  let syntaxValid ← handler.syntaxValid parser text
  let importsValid ← handler.importsValid parser text
  let structureValid ← handler.structureValid parser text
  return { imports := handler.imports text, dependencies, outline, syntaxValid, importsValid,
           structureValid }

end Handler

end SourceLens
