import GridCatalog.Decimal.Layout
import GridCatalog.Json.Quoted
import GridCatalog.Text.Numeral

/-! Writing JSON texts.

    The compact form has no blanks. The indented form puts every item and member on a line of its
    own, two spaces further in than its container; empty containers stay on one line. -/

namespace GridCatalog.Json

def numberText : Number → List Char
  | .integer n => (Text.intText n).toList
  | .double x => if x.isFinite then (Decimal.recordLayout.text x).toList else "null".toList

/-- The text of a value that is no container; a value without content is written as null. -/
def scalarText : Json → List Char
  | .bool b => if b then "true".toList else "false".toList
  | .number (some n) => numberText n
  | .string (some s) => quote s
  | _ => "null".toList

/-- The text of a member name; a name that stands for no text is empty. -/
def nameText (name : Option String) : List Char := quote (name.getD "")

/-- Pieces of text with a separator between them. -/
def separated (separator : List Char) : List (List Char) → List Char
  | [] => []
  | [piece] => piece
  | piece :: next :: pieces => piece ++ separator ++ separated separator (next :: pieces)

/-! ### Compact -/

mutual

def compact : Json → List Char
  | .array items => '[' :: separated [','] (compactItems items) ++ [']']
  | .object members => '{' :: separated [','] (compactMembers members) ++ ['}']
  | v => scalarText v

def compactItems : List Json → List (List Char)
  | [] => []
  | v :: rest => compact v :: compactItems rest

def compactMembers : List (Option String × Json) → List (List Char)
  | [] => []
  | (name, v) :: rest => (nameText name ++ ':' :: compact v) :: compactMembers rest

end

/-! ### Indented -/

def lineBreak (depth : Nat) : List Char := '\n' :: List.replicate (2 * depth) ' '

/-- A container with its parts on lines of their own. -/
def block (opening closing : Char) (depth : Nat) (parts : List (List Char)) : List Char :=
  if parts.isEmpty then [opening, closing]
  else opening :: lineBreak (depth + 1) ++
    separated (',' :: lineBreak (depth + 1)) parts ++ lineBreak depth ++ [closing]

mutual

/-- The indented text of a value at a depth. -/
def indented (depth : Nat) : Json → List Char
  | .array items => block '[' ']' depth (indentedItems (depth + 1) items)
  | .object members => block '{' '}' depth (indentedMembers (depth + 1) members)
  | v => scalarText v

def indentedItems (depth : Nat) : List Json → List (List Char)
  | [] => []
  | v :: rest => indented depth v :: indentedItems depth rest

def indentedMembers (depth : Nat) : List (Option String × Json) → List (List Char)
  | [] => []
  | (name, v) :: rest =>
    (nameText name ++ ':' :: ' ' :: indented depth v) :: indentedMembers depth rest

end

def toCompactText (v : Json) : String := String.ofList (compact v)

def toIndentedText (v : Json) : String := String.ofList (indented 0 v)

end GridCatalog.Json
