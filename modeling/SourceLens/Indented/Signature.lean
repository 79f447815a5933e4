import SourceLens.Indented.Statement

/-!
# Signatures

The parameters of a function header, cut at the commas outside nested brackets and quotes.
-/

namespace SourceLens.Indented

/-- Puts a character in front of the first parameter. -/
def consParam (c : Char) : List Text × Text → List Text × Text
  | (param :: params, after) => ((c :: param) :: params, after)
  | ([], after) => ([[c]], after)

def isCloser (c : Char) : Bool := (openerOf? c).isSome

/-- Cuts the inside of a parameter list at its top-level commas, given the quote and the number of
brackets that are open; also gives the text after the bracket that closes the list. -/
def splitSignature : Option Char → Nat → Text → Option (List Text × Text)
  | _, _, [] => none
  | some quote, depth, c :: rest =>
    (splitSignature (if c = quote then none else some quote) depth rest).map (consParam c)
  | none, depth, c :: rest =>
    if isQuote c then (splitSignature (some c) depth rest).map (consParam c)
    else if isOpener c then (splitSignature none (depth + 1) rest).map (consParam c)
    else if isCloser c then
      if depth = 0 then some ([[]], rest)
      else (splitSignature none (depth - 1) rest).map (consParam c)
    else if c = ',' && depth = 0 then
      (splitSignature none depth rest).map fun (params, after) => ([] :: params, after)
    else (splitSignature none depth rest).map (consParam c)

/-- `_signature`: the parameters of a header and the text after its parameter list; none if the list
does not end. -/
def signature (header : Text) : Option (List Text × Text) :=
  match header.dropWhile (· ≠ '(') with
  | [] => none
  | _ :: inside =>
    (splitSignature none 0 inside).map fun (params, after) =>
      ((params.map Text.collapse).filter (! ·.isEmpty), after)

/-- `_fallback_function`: the function of a header that the header pattern cannot read. -/
def functionOfHeader (name header : Text) : FunctionInfo :=
  match signature header with
  | none => { name }
  | some (params, after) =>
    { name, params, returnType := (arrowType.matchStart? after).map (·.group 1) }

end SourceLens.Indented
