import GridCatalog.Cell
import GridCatalog.Inference.Pattern

/-! Types of columns, from the texts in them.

    Four rules are tried in order, and one applies only if it fits every text of the column: lists
    of numbers, lists of texts, plain numbers, and single texts, which fits everything. In strict
    mode a rule for numbers fits only if every number can be read; else an unreadable one is 0. -/

namespace GridCatalog

/-- Whether a column is numeric only if all its numbers can be read. -/
structure InferenceSettings where
  strictNumbers : Bool
deriving DecidableEq, Repr

/-- The permissive settings. -/
def InferenceSettings.default : InferenceSettings := ⟨false⟩

/-- The kind of a column and its converted cells. -/
structure TypedColumn where
  kind : CellKind
  cells : List Cell
deriving DecidableEq, Repr

namespace Inference

/-- The number that a text is converted to. -/
def convert (settings : InferenceSettings) (text : List Char) : Option Float :=
  match number? text with
  | some x => some x
  | none => if settings.strictNumbers then none else some 0

def numberList (settings : InferenceSettings) (text : List Char) : Option Cell :=
  ((listParts text).mapM (convert settings)).map Cell.numbers

def plainNumber (settings : InferenceSettings) (text : List Char) : Option Cell :=
  (convert settings text).map fun x => .numbers [x]

def textList (text : List Char) : Cell := .texts ((listParts text).map String.ofList)

/-- The cells of a column under a rule that needs a shape and a conversion of every text. -/
def applyRule (shape : List Char → Bool) (cell? : List Char → Option Cell)
    (texts : List (List Char)) : Option (List Cell) :=
  if texts.all shape then texts.mapM cell? else none

/-- The type of a column and its cells, one for each text. -/
def infer (settings : InferenceSettings) (column : List String) : TypedColumn :=
  let texts := column.map String.toList
  match applyRule isNumberList (numberList settings) texts with
  | some cells => ⟨.numbers, cells⟩
  | none =>
    if texts.all isBracketed then ⟨.texts, texts.map textList⟩
    else
      match applyRule isPlainNumber (plainNumber settings) texts with
      | some cells => ⟨.numbers, cells⟩
      | none => ⟨.texts, column.map fun text => .texts [text]⟩

end Inference

end GridCatalog
