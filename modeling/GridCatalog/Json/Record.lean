import GridCatalog.Json.Value
import GridCatalog.Text.Numeral

/-! Records with named fields as JSON values.

    A record is an object, whose unknown members are ignored and whose known ones may not repeat,
    or an array with the values of the first fields in order. A field is required, or has a default
    for the case that it is missing, or is an option that may also be null. -/

namespace GridCatalog.Json

/-- The fields of a record that are present. -/
abbrev Record := List (String × Json)

/-- The record of a value that has fields with the given names. -/
def record? (names : List String) : Json → Option Record
  | .array items => if items.length ≤ names.length then some (names.zip items) else none
  | .object members => do
    let named ← members.mapM fun (name, value) => name.map (·, value)
    let known := named.filter fun (name, _) => names.contains name
    if (known.map Prod.fst).Nodup then some known else none
  | _ => none

namespace Record

/-- A field that has to be present. -/
def required {α : Type} (r : Record) (name : String) (read : Json → Option α) : Option α :=
  (r.lookup name).bind read

def defaulted {α : Type} (r : Record) (name : String) (default : α) (read : Json → Option α) :
    Option α :=
  match r.lookup name with
  | none => some default
  | some value => read value

/-- A field that may be missing or null. -/
def optional {α : Type} (r : Record) (name : String) (read : Json → Option α) :
    Option (Option α) :=
  match r.lookup name with
  | none => some none
  | some .null => some none
  | some value => (read value).map some

end Record

/-! ### Values of fields -/

def text? : Json → Option String
  | .string content => content
  | _ => none

def bool? : Json → Option Bool
  | .bool b => some b
  | _ => none

/-- An integer with `low ≤ n < high`. -/
def int? (low high : Int) : Json → Option Int
  | .number (some (.integer n)) => if low ≤ n && n < high then some n else none
  | _ => none

def nat? (v : Json) : Option Nat := (int? 0 Text.natBound64 v).map Int.toNat

def float? : Json → Option Float
  | .number (some (.integer n)) => some (Float.ofInt n)
  | .number (some (.double x)) => some x
  | _ => none

/-- The items of an array, each of them read. -/
def list? {α : Type} (read : Json → Option α) : Json → Option (List α)
  | .array items => items.mapM read
  | _ => none

/-- One of several words: a string, or an object with the word as its only name and null under
    it. -/
def word? : Json → Option String
  | .string content => content
  | .object [(name, .null)] => name
  | _ => none

end GridCatalog.Json
