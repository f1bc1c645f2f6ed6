import GridCatalog.Text.Numeral

/-! Taking command lines apart.

    A command line has options, a command, and the options and the word of the command. Options
    are long, with the value behind `=` or in the next argument, or short, with the value attached
    or in the next argument; short flags may share a dash. Behind `--` everything is a word. The
    arguments are read one by one, and the first one that makes no sense ends the reading. -/

namespace GridCatalog.CommandLine

/-- Which arguments with a dash in front an option takes as its value. -/
inductive DashRule where
  | none
  | negativeNumbers
  | all
deriving DecidableEq, Repr

/-- What an option takes as its value. -/
structure ValueRule where
  dashes : DashRule
  accepts : String → Bool

/-- An option: a flag, or one with a value. -/
structure OptionSpec where
  long : String
  short : Option Char
  value : Option ValueRule
  /-- Whether the option may be given more than once. -/
  repeats : Bool

/-- A command with its options. -/
structure CommandSpec where
  name : String
  options : List OptionSpec
  /-- The words that the command takes, if it takes one. -/
  word : Option (String → Bool)

/-- The options and the word that have been given, in order; a flag has an empty value. -/
structure Given where
  options : List (String × String)
  word : Option String
deriving DecidableEq, Repr

namespace Given

def nothing : Given := ⟨[], none⟩

def has (g : Given) (name : String) : Bool := g.options.any fun (given, _) => given = name

def values (g : Given) (name : String) : List String :=
  g.options.filterMap fun (given, value) => if given = name then some value else none

def value? (g : Given) (name : String) : Option String := (g.values name).getLast?

end Given

/-- Why a command line is not carried out. -/
inductive Halt where
  | usage
  | help
  /-- The version is asked for, of a command if one was named before. -/
  | version (command : Option String)
deriving DecidableEq, Repr

/-- Where the reading of a command line stands. -/
structure Scan where
  /-- What was given in front of the command. -/
  top : Given
  command : Option CommandSpec
  /-- What was given behind the command. -/
  inner : Given
  /-- The option that the next argument is the value of. -/
  pending : Option (OptionSpec × ValueRule)
  /-- Whether all further arguments are words. -/
  onlyWords : Bool

def helpName : String := "help"

/-- The options and commands of a program. -/
structure Grammar where
  options : List OptionSpec
  commands : List CommandSpec

namespace Grammar

def names (g : Grammar) : List String := helpName :: g.commands.map CommandSpec.name

/-- The command that explains the others, as a command. -/
def helpCommand (g : Grammar) : CommandSpec := ⟨helpName, [], some g.names.contains⟩

def command? (g : Grammar) (name : String) : Option CommandSpec :=
  (g.helpCommand :: g.commands).find? fun c => c.name = name

end Grammar

namespace Scan

def start : Scan := ⟨.nothing, none, .nothing, none, false⟩

/-- What has been given at the place that the reading is at. -/
def given (s : Scan) : Given := if s.command.isSome then s.inner else s.top

/-- Changes what has been given at the place that the reading is at. -/
def withGiven (s : Scan) (g : Given) : Scan :=
  if s.command.isSome then { s with inner := g } else { s with top := g }

/-- The options that may be given at the place that the reading is at. -/
def options (s : Scan) (g : Grammar) : List OptionSpec :=
  match s.command with
  | some c => g.options ++ c.options
  | none => g.options

def add (s : Scan) (o : OptionSpec) (value : String) : Except Halt Scan :=
  if !o.repeats && s.given.has o.long then .error .usage
  else .ok (s.withGiven { s.given with options := s.given.options ++ [(o.long, value)] })

def addValue (s : Scan) (o : OptionSpec) (rule : ValueRule) (value : String) : Except Halt Scan :=
  if rule.accepts value then s.add o value else .error .usage

/-- Takes a word: the command, or the word of the command. -/
def word (s : Scan) (g : Grammar) (text : String) : Except Halt Scan :=
  match s.command with
  | none =>
    match g.command? text with
    | some c =>
      if s.onlyWords then .error .usage
      else .ok { s with command := some c, onlyWords := c.name = helpName }
    | none => .error .usage
  | some c =>
    match c.word, s.inner.word with
    | some accepts, none =>
      if accepts text then .ok { s with inner := { s.inner with word := some text } }
      else .error .usage
    | _, _ => .error .usage

def versionHalt (s : Scan) : Halt := .version (s.command.map CommandSpec.name)

def long (s : Scan) (g : Grammar) (text : List Char) : Except Halt Scan :=
  let name := String.ofList (text.takeWhile (· ≠ '='))
  let attached := match text.dropWhile (· ≠ '=') with
    | _ :: value => some (String.ofList value)
    | [] => none
  match (s.options g).find? fun o => o.long = name with
  | some o =>
    match o.value, attached with
    | none, none => s.add o ""
    | none, some _ => .error .usage
    | some rule, some value => s.addValue o rule value
    | some rule, none => .ok { s with pending := some (o, rule) }
  | none =>
    if attached.isSome then .error .usage
    else if name = "help" then .error .help
    else if name = "version" then .error s.versionHalt
    else .error .usage

def short (s : Scan) (g : Grammar) : List Char → Except Halt Scan
  | [] => .ok s
  | c :: rest =>
    match (s.options g).find? fun o => o.short = some c with
    | some o =>
      match o.value, rest with
      | none, _ => do (← s.add o "").short g rest
      | some rule, [] => .ok { s with pending := some (o, rule) }
      | some rule, '=' :: value => s.addValue o rule (String.ofList value)
      | some rule, value => s.addValue o rule (String.ofList value)
    | none =>
      if c = 'h' then .error .help
      else if c = 'V' then .error s.versionHalt
      else .error .usage

/-- Whether the part behind a dash looks like a number: digits, then at most one point and one
    exponent mark, none of them in front and the mark not at the end. -/
def looksNumeric (s : List Char) : Bool :=
  let afterWhole := s.dropWhile Char.isDigit
  let started := s.head?.any Char.isDigit
  let afterPoint := match afterWhole with
    | '.' :: rest => rest.dropWhile Char.isDigit
    | rest => rest
  match afterPoint with
  | [] => s.isEmpty || started
  | c :: rest => (c = 'e' || c = 'E') && started && !rest.isEmpty && rest.all Char.isDigit

/-- Whether an option takes an argument as its value. -/
def takes (rule : DashRule) (argument : List Char) : Bool :=
  match rule, argument with
  | .all, _ => true
  | _, '-' :: '-' :: _ => false
  | .none, '-' :: _ :: _ => false
  | .negativeNumbers, '-' :: c :: rest => looksNumeric (c :: rest)
  | _, _ => true

def push (g : Grammar) (s : Scan) (argument : String) : Except Halt Scan :=
  match s.pending with
  | some (o, rule) =>
    if takes rule.dashes argument.toList then { s with pending := none }.addValue o rule argument
    else .error .usage
  | none =>
    if s.onlyWords then s.word g argument
    else match argument.toList with
      | ['-', '-'] => .ok { s with onlyWords := true }
      | '-' :: '-' :: name => s.long g name
      | '-' :: c :: rest => s.short g (c :: rest)
      | _ => s.word g argument

end Scan

/-- Takes a command line apart: what was given in front of the command, the command, and what was
    given behind it. -/
def scan (g : Grammar) (arguments : List String) : Except Halt (Given × String × Given) := do
  let s ← arguments.foldlM (Scan.push g) Scan.start
  match s.pending, s.command with
  | none, some c => if c.name = helpName then throw .help else return (s.top, c.name, s.inner)
  | _, _ => throw .usage

end GridCatalog.CommandLine
