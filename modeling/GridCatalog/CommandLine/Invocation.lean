import GridCatalog.CommandLine.ColumnSpec
import GridCatalog.CommandLine.Scan

/-! The commands of the program and their options. -/

namespace GridCatalog.CommandLine

/-- What the program is asked to do. -/
inductive Command where
  | ingest (source : String) (range : Option String) (asJson : Bool)
  | list (after : Option String) (limit : Int) (asJson : Bool)
  | read (id : String) (skip : String) (limit : Option String)
  /-- Approves with the approval in a file. -/
  | approveFile (id : String) (file : String) (asJson : Bool)
  | approve (id : String) (name : String) (columns : List ColumnSpec) (asJson : Bool)
  | archive (id : String)
  | sweep (asJson : Bool)
  | inspect (id : String) (asJson : Bool)
deriving DecidableEq, Repr

/-- What all commands share. -/
structure Globals where
  /-- The directory of the store. -/
  store : String
  /-- The settings file. -/
  config : Option String
  user : Option String
  strictNumbers : Bool
  verbose : Bool
  quiet : Bool
deriving DecidableEq, Repr

/-- A command with what all commands share. -/
structure Invocation where
  globals : Globals
  command : Command
deriving DecidableEq, Repr

/-! ### The options -/

def anyText : ValueRule := ⟨.none, fun _ => true⟩

def pathRule : ValueRule := ⟨.none, fun text => text ≠ ""⟩

/-- Any text, dashes in front included. -/
def dashedText : ValueRule := ⟨.all, fun _ => true⟩

def limit? (text : String) : Option Int := Text.signed? Text.intBound64 text.toList

def limitRule : ValueRule := ⟨.negativeNumbers, fun text => (limit? text).isSome⟩

def columnSpec? (text : String) : Option ColumnSpec := (ColumnSpec.ofText text).toOption

def columnRule : ValueRule := ⟨.none, fun text => (columnSpec? text).isSome⟩

def flag (long : String) (short : Option Char) : OptionSpec := ⟨long, short, none, false⟩

def valued (long : String) (short : Option Char) (rule : ValueRule) : OptionSpec :=
  ⟨long, short, some rule, false⟩

def jsonFlag : OptionSpec := flag "json" none

def grammar : Grammar where
  options :=
    [valued "store" none pathRule, valued "config" none pathRule, valued "user" none anyText,
      flag "strict-numbers" none, flag "verbose" (some 'v'), flag "quiet" (some 'q')]
  commands :=
    [⟨"ingest", [valued "range" none anyText, jsonFlag], some pathRule.accepts⟩,
      ⟨"list", [valued "start-after" none anyText, valued "limit" (some 'l') limitRule, jsonFlag],
        none⟩,
      ⟨"read", [valued "skip" none dashedText, valued "limit" none dashedText],
        some anyText.accepts⟩,
      ⟨"approve", [valued "file" (some 'f') pathRule, valued "name" (some 'n') anyText,
        ⟨"column", some 'c', some columnRule, true⟩, jsonFlag], some anyText.accepts⟩,
      ⟨"archive", [], some anyText.accepts⟩,
      ⟨"sweep", [jsonFlag], none⟩,
      ⟨"show", [jsonFlag], some anyText.accepts⟩]

/-- The directory of the store if none is given. -/
def defaultStore : String := ".sheetset"

def largestLimit : Int := Text.intBound64 - 1

/-! ### The command -/

/-- What all commands share; what is given behind the command counts more. -/
def globals (top inner : Given) : Globals where
  store := ((inner.value? "store").or (top.value? "store")).getD defaultStore
  config := (inner.value? "config").or (top.value? "config")
  user := (inner.value? "user").or (top.value? "user")
  strictNumbers := inner.has "strict-numbers" || top.has "strict-numbers"
  verbose := inner.has "verbose" || top.has "verbose"
  quiet := inner.has "quiet" || top.has "quiet"

/-- The command of a name and what was given for it. -/
def command? (name : String) (g : Given) : Option Command :=
  let asJson := g.has "json"
  match name, g.word with
  | "ingest", some source => some (.ingest source (g.value? "range") asJson)
  | "list", _ =>
    match g.value? "limit" with
    | some text => (limit? text).map fun limit => .list (g.value? "start-after") limit asJson
    | none => some (.list (g.value? "start-after") 20 asJson)
  | "read", some id => some (.read id ((g.value? "skip").getD "0") (g.value? "limit"))
  | "approve", some id =>
    match g.value? "file", g.value? "name", (g.values "column").mapM columnSpec? with
    | some file, none, some [] => some (.approveFile id file asJson)
    | none, some name, some columns => some (.approve id name columns asJson)
    | _, _, _ => none
  | "archive", some id => some (.archive id)
  | "sweep", _ => some (.sweep asJson)
  | "show", some id => some (.inspect id asJson)
  | _, _ => none

/-- Whether the flags for more and for less output were given at the same place. -/
def isContradictory (g : Given) : Bool := g.has "verbose" && g.has "quiet"

def invocation (arguments : List String) : Except Halt Invocation := do
  let (top, name, inner) ← scan grammar arguments
  if isContradictory top || isContradictory inner then throw .usage
  match command? name inner with
  | some command => return ⟨globals top inner, command⟩
  | none => throw .usage

end GridCatalog.CommandLine
