import GridCatalog.Assembly
import GridCatalog.Text.Utf8

/-! Delimited text: records on lines, with a delimiter between their fields.

    A field that starts with a quote goes on to the next single quote and may hold delimiters and
    line ends; two quotes in it stand for one. What follows the closing quote belongs to the field.
    Line feeds and carriage returns end records, and empty lines are skipped. A byte order mark at
    the start of the text is dropped. -/

namespace GridCatalog.Delimited

def quote : UInt8 := 0x22

def isLineEnd (b : UInt8) : Bool := b = 0x0A || b = 0x0D

def byteOrderMark : List UInt8 := [0xEF, 0xBB, 0xBF]

def withoutMark (bytes : List UInt8) : List UInt8 :=
  if byteOrderMark.isPrefixOf bytes then bytes.drop byteOrderMark.length else bytes

/-- Where the reading of a text stands. -/
inductive Place where
  /-- In front of a record. -/
  | record
  /-- In front of a field. -/
  | field
  /-- In a field, outside quotes. -/
  | plain
  /-- Between the quotes of a field. -/
  | quoted
  /-- Behind a quote that ends the quoted part or is the first of two. -/
  | behindQuote
deriving DecidableEq, Repr

/-- What has been read; the records, the fields of the open record and the bytes of the open field
    are in reverse. -/
structure Progress where
  records : List (List (List UInt8))
  fields : List (List UInt8)
  bytes : List UInt8
  place : Place
deriving DecidableEq, Repr

namespace Progress

def start : Progress := ⟨[], [], [], .record⟩

def take (p : Progress) (place : Place) (b : UInt8) : Progress :=
  { p with bytes := b :: p.bytes, place }

/-- Ends the open field, and another follows. -/
def endField (p : Progress) : Progress :=
  ⟨p.records, p.bytes.reverse :: p.fields, [], .field⟩

/-- Ends the open field and the open record. -/
def endRecord (p : Progress) : Progress :=
  ⟨(p.bytes.reverse :: p.fields).reverse :: p.records, [], [], .record⟩

def pushPlain (delimiter : UInt8) (p : Progress) (b : UInt8) : Progress :=
  if b = delimiter then p.endField
  else if isLineEnd b then p.endRecord
  else p.take .plain b

/-- Reads a byte in front of a field. -/
def pushFirst (delimiter : UInt8) (p : Progress) (b : UInt8) : Progress :=
  if b = quote then { p with place := .quoted } else p.pushPlain delimiter b

def push (delimiter : UInt8) (p : Progress) (b : UInt8) : Progress :=
  match p.place with
  | .record => if isLineEnd b then p else p.pushFirst delimiter b
  | .field => p.pushFirst delimiter b
  | .plain => p.pushPlain delimiter b
  | .quoted => if b = quote then { p with place := .behindQuote } else p.take .quoted b
  | .behindQuote => if b = quote then p.take .quoted b else p.pushPlain delimiter b

/-- The records, the open one included. -/
def finish (p : Progress) : List (List (List UInt8)) :=
  (if p.place = .record then p else p.endRecord).records.reverse

end Progress

def records (delimiter : UInt8) (bytes : List UInt8) : List (List (List UInt8)) :=
  ((withoutMark bytes).foldl (Progress.push delimiter) .start).finish

/-- The text of a field, if its bytes are UTF-8. -/
def fieldText? (bytes : List UInt8) : Option String :=
  (Text.utf8Decode? bytes).map String.ofList

/-- The grid of a text, if all its fields are UTF-8. -/
def grid? (delimiter : UInt8) (bytes : List UInt8) : Option Grid :=
  (records delimiter bytes).mapM fun record => record.mapM fieldText?

end GridCatalog.Delimited
