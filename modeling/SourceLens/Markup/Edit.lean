import SourceLens.Descriptor.Basic
import SourceLens.Markup.Analysis

/-!
# Generating and editing documents

Rendering links and scripts, wrapping a text in an inline script, and adding the dependencies that a
document lacks: style sheets before the end of its head, scripts before the end of its body.
-/

namespace SourceLens.Markup

/-- Whether a file name ends in a style sheet's extension, in any case. -/
def isCssFile (dep : Text) : Bool := Text.endsWith ".css".toList (lower dep)

/-- Whether a file name ends in a script's extension, in any case. -/
def isScriptFile (dep : Text) : Bool := Text.endsWith ".js".toList (lower dep)

/-- The markup that includes a file. -/
def importLine (dep : Text) : Text :=
  if isCssFile dep then "<link rel=\"stylesheet\" href=\"".toList ++ dep ++ "\">".toList
  else if isScriptFile dep then "<script src=\"".toList ++ dep ++ "\"></script>".toList
  else "<!-- Unknown dependency: ".toList ++ dep ++ " -->".toList

/-- `generate_imports`: the markup that includes files, one a line. -/
def generateImports (deps : List Text) : Text := Text.unlines (deps.map importLine)

def functionText (width : Nat) (name : Text) (params : List Text) (body : Text) : Text :=
  "function ".toList ++ name ++ '(' :: Text.join ", ".toList params ++ ") \x7b\n".toList
    ++ Text.indent width body ++ "\n\x7d".toList

def scriptText (content : Text) : Text :=
  "<script>\n".toList ++ content ++ "\n</script>".toList

/-- `generate_function`: an inline script with one function. -/
def generateFunction (width : Nat) (name : Text) (params : List Text) (body : Text) : Text :=
  scriptText (functionText width name params body)

/-- `generate_class`: a division of a class, with the given lines inside. -/
def generateClass (width : Nat) (name : Text) (content : List Text) : Text :=
  "<div class=\"".toList ++ name ++ "\">\n".toList ++ Text.indent width (Text.unlines content)
    ++ "\n</div>".toList

/-- `wrap_in_function`: an inline script with a function whose body is the text. -/
def wrap (width : Nat) (text name : Text) : Text := scriptText (functionText width name [] text)

/-- The offset at which the line of an offset starts. -/
def lineStartAt (text : Text) (offset : Nat) : Nat :=
  match Text.findLast? ['\n'] (text.take offset) with
  | some i => i + 1
  | none => 0

/-- `_insert_before`: puts markup before an offset: in the line if something stands before the
offset there, else on lines of its own above, one step deeper than that line. -/
def insertBefore (width : Nat) (text : Text) (offset : Nat) (markup : Text) : Text :=
  let lineStart := lineStartAt text offset
  let lead := (text.drop lineStart).take (offset - lineStart)
  if Text.allBlank lead then
    let pad := lead ++ Text.spaces width
    let inserted := (Text.lines markup).flatMap fun line => pad ++ line ++ ['\n']
    text.take lineStart ++ inserted ++ text.drop lineStart
  else text.take offset ++ markup ++ text.drop offset

/-- The text with style sheets before the end of the head and scripts before the end of the body.
The places are found before anything is put in, and the scripts are put in first. -/
def insertFiles (width : Nat) (text : Text) (links scripts : List Text) : Text :=
  let lowered := lower text
  match Text.find? "</head>".toList lowered, Text.findLast? "</body>".toList lowered with
  | some headClose, some bodyClose =>
    let text := if scripts.isEmpty then text
      else insertBefore width text bodyClose (generateImports scripts)
    if links.isEmpty then text else insertBefore width text headClose (generateImports links)
  | _, _ => text

/-- `inject_imports`: the text with the dependencies that it lacks; files of other kinds are never
put in. -/
def injectImports (parser : Parser) (width : Nat) (text : Text) (deps : List Text) :
    Logged Text := do
  let present ← dependencies parser text
  let new := Dependency.toInject importLine text deps present
  let links := new.filter isCssFile
  let scripts := new.filter isScriptFile
  return if links.isEmpty && scripts.isEmpty then text else insertFiles width text links scripts

end SourceLens.Markup
