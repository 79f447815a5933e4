import SourceLens.Descriptor.Basic

/-!
# The languages

The descriptors of the five languages.
-/

namespace SourceLens.Descriptor

open Pattern

/-! ## Shared pieces -/

def blanks : Pattern := many blank

def blanks1 : Pattern := many1 blank

def gaps : Pattern := many (among " \t")

def gaps1 : Pattern := many1 (among " \t")

def quote : Pattern := one isQuote

def unquoted : Pattern := one fun c => !isQuote c

def specifier : Pattern := chain [quote, group 1 (many1 unquoted), quote]

/-- A script name: word characters and dollar signs. -/
def scriptName : Pattern := many1 (one fun c => isWord c || c == '$')

/-- A word of a stylesheet: word characters and hyphens. -/
def styleName : Pattern := many1 (one fun c => isWord c || c == '-')

/-- A parenthesised list without nesting, its inside kept in group 2. -/
def parameterList : Pattern := chain [lit "(", group 2 (many (noneOf ")")), lit ")"]

/-- A block between braces that holds no other brace. -/
def bracedBlock : Pattern :=
  chain [lit "\x7b", many (noneOf "\x7b\x7d"), lit "\x7d"]

def optAsync : Pattern := opt (chain [lit "async", blanks1])

def declarator : Pattern := oneOf [lit "const", lit "let", lit "var"]

/-! ## Scripts -/

def importFrom : Pattern :=
  chain [wordEdge, lit "import", blanks1, opt (chain [lit "type", blanks1]),
    opt (chain [scriptName, blanks, lit ",", blanks]),
    oneOf [chain [lit "*", blanks, lit "as", blanks1, scriptName],
      chain [lit "\x7b", many (noneOf "\x7d"), lit "\x7d"],
      scriptName],
    blanks, lit "from", blanks, specifier]

def importBare : Pattern := chain [wordEdge, lit "import", blanks, specifier]

/-- A call of a loader with one quoted argument. -/
def loaderCall (loader : String) : Pattern :=
  chain [wordEdge, lit loader, blanks, lit "(", blanks, specifier, blanks, lit ")"]

/-- TypeScript. -/
def typescript : Descriptor where
  extensions := [".ts", ".tsx"]
  languageId := "typescript"
  importPatterns := [importFrom, importBare, loaderCall "import", loaderCall "require"]
  functionPatterns :=
    [chain [optAsync, lit "function", blanks, opt (lit "*"), blanks, group 1 scriptName, blanks,
      opt (chain [lit "<", many (noneOf ">"), lit ">"]), blanks, parameterList],
     chain [declarator, blanks1, group 1 scriptName, blanks, lit "=", blanks, optAsync,
      lit "function", wordEdge],
     chain [declarator, blanks1, group 1 scriptName, blanks, lit "=", blanks, optAsync,
      parameterList, blanks, opt (chain [lit ":", many1 (noneOf "=")]), lit "=>"]]
  classPatterns :=
    [chain [wordEdge, lit "class", blanks1, group 1 scriptName],
     chain [wordEdge, lit "interface", blanks1, group 1 scriptName]]
  blockPatterns := [bracedBlock]

/-- JavaScript. -/
def javascript : Descriptor where
  extensions := [".js", ".jsx", ".mjs", ".cjs"]
  languageId := "javascript"
  importPatterns := [importFrom, importBare, loaderCall "require"]
  functionPatterns :=
    [chain [lit "function", blanks, opt (lit "*"), blanks, group 1 scriptName, blanks,
      parameterList],
     chain [group 1 scriptName, blanks, lit ":", blanks, lit "function", blanks, parameterList],
     chain [group 1 scriptName, blanks, lit "=", blanks, lit "function", blanks, parameterList],
     chain [group 1 scriptName, blanks, lit "=", blanks, optAsync, parameterList, blanks,
      lit "=>"]]
  classPatterns :=
    [chain [wordEdge, lit "class", blanks1, group 1 scriptName,
      opt (chain [blanks1, lit "extends", blanks1,
        group 2 (many1 (one fun c => isWord c || c == '$' || c == '.'))]),
      blanks, lit "\x7b"]]
  blockPatterns := [bracedBlock]

/-! ## Python -/

def dottedName : Pattern := many1 (one fun c => isWord c || c == '.')

/-- A function header on one line, or over several as long as no parenthesis is nested. -/
def defHeader : Pattern :=
  chain [lineStart, gaps, opt (chain [lit "async", gaps1]), lit "def", gaps1,
    group 1 (many1 wordChar), gaps, parameterList,
    opt (chain [gaps, lit "->", gaps, group 3 (few1 (noneOf ":"))]), gaps, lit ":"]

/-- Python. -/
def python : Descriptor where
  extensions := [".py"]
  languageId := "python"
  importPatterns :=
    [chain [lineStart, gaps, lit "from", gaps1, group 1 dottedName, gaps1, lit "import", wordEdge],
     chain [lineStart, gaps, lit "import", gaps1, group 1 dottedName]]
  functionPatterns := [defHeader]
  classPatterns :=
    [chain [lineStart, gaps, lit "class", gaps1, group 1 (many1 wordChar),
      opt (chain [lit "(", many (noneOf ")"), lit ")"]), gaps, lit ":"]]
  blockPatterns :=
    [chain [lit ":", gaps, lit "\n", gaps1, many1 (noneOf "\n"),
      many (chain [lit "\n", gaps1, many1 (noneOf "\n")])]]

/-! ## Stylesheets -/

/-- A style rule's mixin header: a name and perhaps parameters. -/
def mixinHeader : Pattern :=
  chain [lit "@mixin", blanks1, group 1 styleName, blanks, opt parameterList]

/-- A style function's header: a name and parameters. -/
def styleFunctionHeader : Pattern :=
  chain [lit "@function", blanks1, group 1 styleName, blanks, parameterList]

/-- Cascading style sheets and the languages that extend them. -/
def css : Descriptor where
  extensions := [".css", ".scss", ".less"]
  languageId := "css"
  importPatterns :=
    [chain [lit "@import", blanks1, opt (chain [lit "url(", blanks]), specifier, blanks,
      opt (lit ")")],
     chain [lit "@use", blanks1, specifier]]
  functionPatterns := [mixinHeader, styleFunctionHeader]
  classPatterns :=
    [chain [lit ".", group 1 (chain [opt (lit "-"),
      one fun c => c == '_' || ('a' ≤ c && c ≤ 'z') || ('A' ≤ c && c ≤ 'Z'),
      many (one fun c => isWord c || c == '-')])]]
  blockPatterns := [bracedBlock]

/-! ## Markup -/

/-- The characters that a small letter stands for when case is ignored. -/
def caseForms (c : Char) : List Char :=
  [c, c.toUpper] ++
    (if c == 'i' then ['\u0130', '\u0131']
     else if c == 'k' then ['\u212a']
     else if c == 's' then ['\u017f']
     else [])

/-- A fixed text of small letters and signs, in any case. -/
def anyCase (text : String) : Pattern :=
  chain (text.toList.map fun c => one fun d => (caseForms c).contains d)

def fileTag (tag role : String) : Pattern :=
  chain [anyCase ("<" ++ tag), blanks1, many (noneOf ">"), anyCase (role ++ "="), specifier,
    many (noneOf ">"), lit ">"]

def html : Descriptor where
  extensions := [".html", ".htm"]
  languageId := "html"
  importPatterns :=
    [fileTag "link" "href", fileTag "script" "src",
     chain [lit "@import", blanks1, opt (lit "url("), blanks, specifier, blanks, opt (lit ")")]]
  functionPatterns :=
    [chain [lit "function", blanks1, group 1 scriptName, blanks, parameterList],
     chain [lit "const", blanks1, group 1 scriptName, blanks, lit "=", blanks, optAsync,
      parameterList, blanks, lit "=>"]]
  classPatterns := [chain [lit "class=", specifier]]
  blockPatterns := [chain [lit "<", many1 (noneOf ">"), lit ">"], bracedBlock]

end SourceLens.Descriptor
