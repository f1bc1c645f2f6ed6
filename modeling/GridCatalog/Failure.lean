import GridCatalog.Disk.Basic

/-! What can go wrong, and how it is put into words.

    Stores and sources have faults of their own. A failure of the catalog has a reason for programs
    and a message for people, and where a store or a source is to blame the message ends with what
    that said. -/

namespace GridCatalog

/-- Why a store did not serve a call. -/
inductive StoreError where
  | notFound (id : String)
  | file (path : String) (fault : FileFault)
  /-- A stored record cannot be read. -/
  | malformed
  | unavailable (detail : String)
deriving DecidableEq, Repr

/-- Why a source did not give a grid. -/
inductive SourceError where
  | notFound (sourceId : String)
  | sheetNotFound (sourceId sheet : String)
  | file (path : String) (fault : FileFault)
  /-- A delimited text cannot be read. -/
  | malformed
  | invalidRange (text : String)
  | unavailable (detail : String)
deriving DecidableEq, Repr

def fileMessage (path : String) (fault : FileFault) : String :=
  "IO error for '" ++ path ++ "': " ++ fault.message

/-- The message about a record that cannot be read. -/
def malformedMessage : String := "JSON error"

namespace StoreError

/-- Whether the call named something that is not there. -/
def isNotFound : StoreError → Bool
  | notFound _ => true
  | _ => false

def message : StoreError → String
  | notFound id => "entity '" ++ id ++ "' not found"
  | file path fault => fileMessage path fault
  | malformed => malformedMessage
  | unavailable detail => "store unavailable: " ++ detail

end StoreError

def SourceError.message : SourceError → String
  | notFound sourceId => "source '" ++ sourceId ++ "' not found"
  | sheetNotFound sourceId sheet =>
    "sheet '" ++ sheet ++ "' not found in source '" ++ sourceId ++ "'"
  | file path fault => fileMessage path fault
  | malformed => "CSV parsing error"
  | invalidRange text => "invalid range '" ++ text ++ "'"
  | unavailable detail => "source unavailable: " ++ detail

/-- What is to blame for something that could not be read. -/
inductive Cause where
  | store (error : StoreError)
  | source (error : SourceError)
deriving DecidableEq, Repr

def Cause.message : Cause → String
  | store error => error.message
  | source error => error.message

/-- Why the catalog did not do what it was asked for. -/
inductive Failure where
  /-- The request makes no sense. -/
  | refused (reason message : String)
  /-- What the request is about is not there. -/
  | absent (reason message : String)
  /-- A source or a store could not be read. -/
  | unreadable (reason message : String) (cause : Cause)
  /-- A store could not be written. -/
  | unsaved (reason message : String) (cause : StoreError)
  | file (path : String) (fault : FileFault)
  | malformed
  | settings (detail : String)
deriving DecidableEq, Repr

namespace Failure

def reason : Failure → String
  | refused reason _ => reason
  | absent reason _ => reason
  | unreadable reason _ _ => reason
  | unsaved reason _ _ => reason
  | file _ _ => "io-error"
  | malformed => "json-error"
  | settings _ => "config-error"

def message : Failure → String
  | refused _ message => message
  | absent _ message => message
  | unreadable _ message cause => message ++ ": " ++ cause.message
  | unsaved _ message cause => message ++ ": " ++ cause.message
  | file path fault => fileMessage path fault
  | malformed => malformedMessage
  | settings detail => "Configuration error: " ++ detail

def isClientError : Failure → Bool
  | refused _ _ => true
  | absent _ _ => true
  | _ => false

end Failure

end GridCatalog
