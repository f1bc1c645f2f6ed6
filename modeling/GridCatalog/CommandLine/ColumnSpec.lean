import GridCatalog.Approval
import GridCatalog.Inference.Heading
import GridCatalog.Text.Blank
import GridCatalog.Text.Lower
import GridCatalog.Text.Numeral
import GridCatalog.Text.Pieces

/-! Column selections on the command line.

    A selection is written `origin:index`, and a title, a number of decimal places and a flag for
    outputs may follow behind further colons. Blanks around the parts do not count, and a blank
    part counts as missing. -/

namespace GridCatalog

/-- A selection as it is written; without a title the column keeps its own. -/
structure ColumnSpec where
  /-- The current index of the column. -/
  column : Nat
  /-- The new index. -/
  index : Nat
  title : Option String
  decimals : Int8
  isOutput : Bool
deriving DecidableEq, Repr

namespace ColumnSpec

/-- Why a selection cannot be read. -/
inductive Fault where
  | shape (text : String)
  | origin (part : String)
  | index (part : String)
  | decimals (part : String)
  | flag (part : String)
deriving DecidableEq, Repr

def Fault.message : Fault → String
  | shape text =>
    "Invalid column spec: " ++ text ++ ". Use origin:index[:title[:decimals[:output]]]."
  | origin part => "Invalid origin in column spec: " ++ part
  | index part => "Invalid index in column spec: " ++ part
  | decimals part => "Invalid decimals in column spec: " ++ part
  | flag part => "Invalid output flag in column spec: " ++ part

def indexOf (fault : String → Fault) (part : List Char) : Except Fault Nat :=
  match Text.unsigned? Text.natBound64 (Text.trim part) with
  | some n => .ok n
  | none => .error (fault (String.ofList part))

def titleOf (part : List Char) : Option String :=
  let title := Text.trim part
  if title.isEmpty then none else some (String.ofList title)

def decimalsOf (part : List Char) : Except Fault Int8 :=
  let text := Text.trim part
  if text.isEmpty then .ok 0
  else match Text.signed? Text.intBound8 text with
    | some n => .ok (Int8.ofInt n)
    | none => .error (.decimals (String.ofList text))

/-- The words that do not mark an output. -/
def inputWords : List String := ["", "false", "no", "0", "input"]

def outputWords : List String := ["true", "yes", "1", "output"]

/-- Reads a flag, in any case. -/
def flagOf (part : List Char) : Except Fault Bool :=
  let word := String.ofList (Text.lower (Text.trim part))
  if inputWords.contains word then .ok false
  else if outputWords.contains word then .ok true
  else .error (.flag word)

def ofText (text : String) : Except Fault ColumnSpec := do
  match Text.pieces ':' text.toList with
  | column :: index :: rest =>
    if 3 < rest.length then throw (.shape text)
    let column ← indexOf .origin column
    let index ← indexOf .index index
    let decimals ← decimalsOf (rest[1]?.getD [])
    let isOutput ← flagOf (rest[2]?.getD [])
    return { column, index, title := titleOf (rest[0]?.getD []), decimals, isOutput }
  | _ => throw (.shape text)

/-- The title for a new index. Columns are numbered in machine words, where 0 follows the largest index. -/
def generatedTitle (index : Nat) : String := Inference.numberTitle ((index + 1) % Text.natBound64)

/-- The title that a selection gives: its own, or that of the column it names, or one for its new
    index. -/
def titleIn (s : ColumnSpec) (header : List Column) : String :=
  match s.title, header.find? fun c => c.index = s.column with
  | some title, _ => title
  | none, some c => c.title
  | none, none => generatedTitle s.index

def approval (name : String) (specs : List ColumnSpec) (header : List Column) : Approval :=
  { name
    selections := specs.map fun s =>
      { column := s.column, index := s.index, title := s.titleIn header, decimals := s.decimals
        isOutput := s.isOutput } }

end ColumnSpec

end GridCatalog
