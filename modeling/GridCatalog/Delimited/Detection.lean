import GridCatalog.Text.Blank
import GridCatalog.Text.Pieces
import GridCatalog.Text.Utf8

/-! The delimiter of a text, found from its first lines.

    Every candidate is counted outside quotes in each of the first lines that are not blank. The
    count in the first line is the candidate's score, a hundred times as much if the counts vary
    little, and a thousand times if they are all equal. The best score wins, the first of equals;
    without any score above 0 it is the comma, and without lines there is none. -/

namespace GridCatalog.Delimited

/-- The delimiters that are tried, in order. -/
def candidates : List Char := ['\t', ',', ';', '|']

/-- The number of lines that are looked at. -/
def sampleLines : Nat := 10

/-- A line without the carriage return at its end. -/
def withoutReturn (line : List UInt8) : List UInt8 :=
  if line.getLast? = some 0x0D then line.dropLast else line

/-- The lines of a text. Line feeds end lines, with a carriage return in front of them; what stands
    behind the last line feed is a line unless it is empty. -/
def lines (bytes : List UInt8) : List (List UInt8) :=
  let parts := Text.pieces 0x0A bytes
  let last := parts.getLast?.getD []
  parts.dropLast.map withoutReturn ++ (if last = [] then [] else [last])

/-- The first lines that are UTF-8 and not blank. Lines that are not count as looked at. -/
def sample (bytes : List UInt8) : List (List Char) :=
  (((lines bytes).take sampleLines).filterMap Text.utf8Decode?).filter fun line =>
    !(Text.trim line).isEmpty

/-- How often a character stands in a line outside quotes. -/
def countOutside (delimiter : Char) (inQuotes : Bool) : List Char → Nat
  | [] => 0
  | c :: rest =>
    if c = '"' then countOutside delimiter (!inQuotes) rest
    else (if c = delimiter && !inQuotes then 1 else 0) + countOutside delimiter inQuotes rest

def total (counts : List Nat) : Nat := counts.foldl (· + ·) 0

/-- The sum of numbers, from the left. -/
def sum (xs : List Float) : Float := xs.foldl (· + ·) 0

/-- The mean square of the distances to the mean, in double arithmetic. -/
def variance (counts : List Nat) : Float :=
  let size := Float.ofNat counts.length
  let mean := Float.ofNat (total counts) / size
  let square (n : Nat) : Float := (Float.ofNat n - mean) * (Float.ofNat n - mean)
  sum (counts.map square) / size

/-- The score of a candidate with the given counts. A tab that stands equally often in all lines
    has an advantage. -/
def score (delimiter : Char) (counts : List Nat) : Nat :=
  match counts with
  | [] => 0
  | first :: rest =>
    if first = 0 then 0
    else if rest.all (· = first) then first * 1000 + (if delimiter = '\t' then 100 else 0)
    else if variance counts < 1 then first * 100
    else first

/-- The better of the best candidate so far and another one, with their scores. -/
def better (best : Char × Nat) (other : Char × Nat) : Char × Nat :=
  if best.2 < other.2 then other else best

/-- The delimiter of a text, if it has a line that is not blank. -/
def detect? (bytes : List UInt8) : Option Char :=
  let sample := sample bytes
  if sample.isEmpty then none
  else
    let scored := candidates.map fun c => (c, score c (sample.map (countOutside c false)))
    some (scored.foldl better (',', 0)).1

end GridCatalog.Delimited
