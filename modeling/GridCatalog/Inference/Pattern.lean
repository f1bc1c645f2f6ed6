import GridCatalog.Decimal.Basic
import GridCatalog.Text.Blank
import GridCatalog.Text.Pieces

/-! Shapes of the texts in a grid.

    The shapes are questions about single texts: a bracketed list, a plain number, a column title.
    A list is taken apart at its commas after the brackets and some padding around it are dropped,
    and each part may be read as a number. -/

namespace GridCatalog.Inference

/-- What stands between `[` at the start and `]` at the end, if the text has both and no line
    break between them. -/
def bracketed? (s : List Char) : Option (List Char) :=
  match s with
  | '[' :: rest =>
    match rest.reverse with
    | ']' :: inner => if '\n' ∈ inner then none else some inner.reverse
    | _ => none
  | _ => none

/-- Whether a text is a list in brackets. -/
def isBracketed (s : List Char) : Bool := (bracketed? s).isSome

/-- Whether a text is a list in brackets whose first character is a digit. -/
def isNumberList (s : List Char) : Bool :=
  (bracketed? s).any fun inner => inner.head?.any Char.isDigit

/-- Whether a text has only digits and the marks of numbers; the empty text has. -/
def isPlainNumber (s : List Char) : Bool :=
  s.all fun c => c.isDigit || c = '.' || c = ',' || c = '-'

/-- Whether a text could be the title of a column: only ASCII letters and digits, `_` and spaces. -/
def isTitle (s : List Char) : Bool := s.all fun c => c.isAlphanum || c = '_' || c = ' '

/-- The characters that stand around the content of a list. -/
def isListPadding (c : Char) : Bool := c = ' ' || c = '_' || c = '!' || c = '[' || c = ']'

/-- The parts of a list between its commas. -/
def listParts (s : List Char) : List (List Char) := Text.pieces ',' (Text.trimEnds isListPadding s)

/-- The finite number that a text stands for, blanks around it aside. -/
def number? (s : List Char) : Option Float :=
  (Decimal.readFloat? (Text.trim s)).bind fun x => if x.isFinite then some x else none

end GridCatalog.Inference
