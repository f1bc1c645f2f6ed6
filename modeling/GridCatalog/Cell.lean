import GridCatalog.Decimal.Layout
import GridCatalog.Decimal.Rounding

/-! Cells of typed columns.

    A cell holds a sequence, either of numbers or of texts; a plain value is a sequence of length
    one. An empty cell still has a kind, that of the column it stands in. -/

namespace GridCatalog

/-- What the cells of a column hold. -/
inductive CellKind where
  | numbers
  | texts
deriving DecidableEq, Repr, Inhabited

def CellKind.label : CellKind → String
  | .numbers => "number[]"
  | .texts => "string[]"

/-- A sequence of numbers or of texts. -/
inductive Cell where
  | numbers (values : List Float)
  | texts (values : List String)
deriving DecidableEq, Repr

namespace Cell

def empty : CellKind → Cell
  | .numbers => numbers []
  | .texts => texts []

def kind : Cell → CellKind
  | numbers _ => .numbers
  | texts _ => .texts

def size : Cell → Nat
  | numbers values => values.length
  | texts values => values.length

def isEmpty (c : Cell) : Bool := c.size = 0

/-- The numbers of a cell, rounded to decimal places; a cell of texts has none. -/
def roundedNumbers (places : Int) : Cell → List Float
  | numbers values => values.map (Decimal.roundTo places)
  | texts _ => []

/-- The texts of a cell; numbers are written without an exponent part. -/
def toTexts : Cell → List String
  | numbers values => values.map Decimal.plainLayout.text
  | texts values => values

/-- A cell for people: the text of a single value, else all texts in brackets. -/
def display (c : Cell) : String :=
  match c.toTexts with
  | [text] => text
  | many => "[" ++ ", ".intercalate many ++ "]"

/-- The cell as one of a column of the given kind: an empty cell changes its kind and any other
    stays as it is. -/
def retype (k : CellKind) (c : Cell) : Cell := if c.isEmpty then empty k else c

/-- Whether two cells have the same kind and equal values in order; numbers compare as numbers, so
    that the two zeros are equal and a value that is no number equals nothing. -/
def agrees : Cell → Cell → Bool
  | numbers xs, numbers ys => xs.length = ys.length && (xs.zip ys).all fun (x, y) => x == y
  | texts xs, texts ys => xs = ys
  | _, _ => false

theorem kind_empty (k : CellKind) : (empty k).kind = k := by cases k <;> rfl

theorem isEmpty_empty (k : CellKind) : (empty k).isEmpty = true := by cases k <;> rfl

/-- An empty cell is the empty cell of its kind. -/
theorem eq_empty_of_isEmpty {c : Cell} (h : c.isEmpty = true) : c = empty c.kind := by
  cases c <;> simp_all [isEmpty, size, empty, kind]

/-- A cell of the right kind is kept as it is. -/
theorem retype_kind (c : Cell) : c.retype c.kind = c := by
  unfold retype
  split
  · rename_i h; exact (eq_empty_of_isEmpty h).symm
  · rfl

theorem retype_of_not_isEmpty {c : Cell} (h : c.isEmpty = false) (k : CellKind) :
    c.retype k = c := by simp [retype, h]

end Cell

end GridCatalog
