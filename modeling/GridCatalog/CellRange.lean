import GridCatalog.Assembly

/-! Ranges of cells in A1 notation.

    A range such as `B2:D10` names its first and last column and, where given, its first and last
    row. Columns are numbered by letters: `A` is 1, `Z` is 26, `AA` is 27. Rows are numbered from 1;
    without a first row the range starts at the top, and without a last row it has no end. -/

namespace GridCatalog

/-- A rectangle of cells; both ends belong to it, and positions count from 0. -/
structure CellRange where
  firstColumn : Nat
  lastColumn : Nat
  firstRow : Nat
  /-- The last row, if the range has one. -/
  lastRow : Option Nat
deriving DecidableEq, Repr

namespace CellRange

/-- The first 26 columns, all rows. -/
def default : CellRange := ⟨0, 25, 0, none⟩

/-! ### Letters -/

def letter (n : Nat) : Char := Char.ofNat ('A'.toNat + n)

/-- The number of a letter, counted from 1. -/
def letterValue (c : Char) : Nat := c.toUpper.toNat - 'A'.toNat + 1

def columnLetters (column : Nat) : List Char :=
  if column < 26 then [letter column]
  else columnLetters (column / 26 - 1) ++ [letter (column % 26)]
termination_by column
decreasing_by omega

/-- The number that letters stand for; `A` is 1. -/
def lettersValue (letters : List Char) : Nat :=
  letters.foldl (fun n c => 26 * n + letterValue c) 0

/-! ### Reading -/

/-- A number that counts from 1, as one that counts from 0, if it is in bounds. -/
def fromOne? (n : Nat) : Option Nat := if 0 < n && n < Text.natBound64 then some (n - 1) else none

/-- The row of a run of digits; without digits there is none. -/
def row? (ds : List Char) : Option (Option Nat) :=
  if ds.isEmpty then some none
  else ((Text.numeral? ds).bind fromOne?).map some

/-- One side of a range: its letters and its digits, and what follows. -/
structure Corner where
  letters : List Char
  digits : List Char
  rest : List Char

def corner (s : List Char) : Corner :=
  let afterLetters := s.dropWhile Char.isAlpha
  ⟨s.takeWhile Char.isAlpha, afterLetters.takeWhile Char.isDigit,
    afterLetters.dropWhile Char.isDigit⟩

/-- The column and the row of a corner. -/
def Corner.position? (c : Corner) : Option (Nat × Option Nat) := do
  let column ← if c.letters.isEmpty then none else fromOne? (lettersValue c.letters)
  let row ← row? c.digits
  return (column, row)

/-- Whether the rows are in order where both are given. -/
def rowsInOrder : Option Nat → Option Nat → Bool
  | some first, some last => first ≤ last
  | _, _ => true

def between? (first last : Nat × Option Nat) : Option CellRange :=
  if first.1 ≤ last.1 && rowsInOrder first.2 last.2 then
    some ⟨first.1, last.1, first.2.getD 0, last.2⟩
  else none

def ofText? (text : String) : Option CellRange := do
  let start := corner (Text.trim text.toList)
  match start.rest with
  | ':' :: more =>
    let stop := corner more
    if stop.rest.isEmpty then between? (← start.position?) (← stop.position?) else none
  | _ => none

/-! ### Writing and cutting -/

/-- The text of a range. The first row is written where it is not the top or a last row follows. -/
def toText (r : CellRange) : String :=
  let firstRow := if r.lastRow.isSome || 0 < r.firstRow then Text.digits (r.firstRow + 1) else []
  let lastRow := match r.lastRow with
    | some row => Text.digits (row + 1)
    | none => []
  String.ofList (columnLetters r.firstColumn ++ firstRow ++ ':' ::
    (columnLetters r.lastColumn ++ lastRow))

def width (r : CellRange) : Nat := r.lastColumn + 1 - r.firstColumn

/-- The rows of a grid that belong to a range. -/
def cutRows (r : CellRange) (grid : Grid) : Grid :=
  match r.lastRow with
  | some last => (grid.drop r.firstRow).take (last + 1 - r.firstRow)
  | none => grid.drop r.firstRow

/-- The part of a grid that belongs to a range. Rows that do not reach the range become empty. -/
def cut (r : CellRange) (grid : Grid) : Grid :=
  (r.cutRows grid).map fun row => (row.drop r.firstColumn).take r.width

end CellRange

end GridCatalog
