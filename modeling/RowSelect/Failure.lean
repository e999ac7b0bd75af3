import RowSelect.Json.Printer
import RowSelect.Query.Statement

/-!
Everything that can go wrong, by cause, and the text that reports it.
-/

set_option autoImplicit false

namespace RowSelect

inductive ReferenceFault where
  | noTable (table : String)
  | unqualified (column : String)
  | notListed (table : String) (column : String)
  | noColumn (column : String)
  deriving DecidableEq, Repr

def ReferenceFault.message : ReferenceFault → String
  | noTable t => "table '" ++ t ++ "' does not exist"
  | unqualified c => "column '" ++ c ++ "' is not qualified with a table"
  | notListed t c => "table '" ++ t ++ "' of column '" ++ c ++ "' is not listed in FROM"
  | noColumn c => "column '" ++ c ++ "' does not exist"

inductive SchemaFault where
  | notTables
  | notRecords (table : String)
  | notRecord (index : Nat) (table : String) (row : Json)
  deriving DecidableEq, Repr

def SchemaFault.message : SchemaFault → String
  | notTables => "database document must be an object of tables"
  | notRecords t => "table '" ++ t ++ "' must be an array of records"
  | notRecord i t row =>
    "row " ++ toString i ++ " of table '" ++ t ++ "' is not an object: " ++ row.compact

inductive SettingsFault where
  | malformed
  | noHome
  | unsetVariable (path : String) (name : String)
  deriving DecidableEq, Repr

def SettingsFault.message : SettingsFault → String
  | malformed => "Invalid config: "
  | noHome => "HOME not set"
  | unsetVariable path v =>
    "Cannot expand '" ++ path ++ "': error looking key '" ++ v ++
      "' up: environment variable not found"

inductive FileFault where
  | notFound
  | isDirectory
  | notDirectory
  | notUtf8
  | nameTooLong
  /-- The path has a character in it that ends a text for the system. -/
  | nulInPath
  | other (message : String)
  deriving DecidableEq, Repr

def FileFault.message : FileFault → String
  | notFound => "No such file or directory (os error 2)"
  | isDirectory => "Is a directory (os error 21)"
  | notDirectory => "Not a directory (os error 20)"
  | notUtf8 => "stream did not contain valid UTF-8"
  | nameTooLong => "File name too long (os error 36)"
  | nulInPath => "file name contained an unexpected NUL byte"
  | other m => m

/-- A record of comma-separated values that has not as many fields as the ones before it. -/
structure RecordFault where
  found : Nat
  expected : Nat
  deriving DecidableEq, Repr

def RecordFault.message (f : RecordFault) : String :=
  "CSV error: found record with " ++ toString f.found ++ " fields, but the previous record has " ++
    toString f.expected ++ " fields"

inductive Failure where
  | invalidSyntax (fault : Query.SyntaxFault)
  | openLiteral (offset : Nat)
  | unknownReference (fault : ReferenceFault)
  | emptyTable (table : String)
  | rowOutOfRange (table : String) (index : Nat)
  | schema (fault : SchemaFault)
  | settings (fault : SettingsFault)
  | notJson
  | record (fault : RecordFault)
  | file (fault : FileFault)
  deriving DecidableEq, Repr

namespace Failure

def message : Failure → String
  | invalidSyntax f => "Invalid syntax: " ++ f.message
  | openLiteral n => "Malformed literal: unterminated quote at byte " ++ toString n
  | unknownReference f => "Unknown reference: " ++ f.message
  | emptyTable t => "Table '" ++ t ++ "' is empty, schema cannot be inferred"
  | rowOutOfRange t i => "Row " ++ toString i ++ " out of range for table '" ++ t ++ "'"
  | schema f => "Schema error: " ++ f.message
  | settings f => "Configuration error: " ++ f.message
  | notJson => "JSON error: "
  | record f => "CSV error: " ++ f.message
  | file f => "I/O error: " ++ f.message

def isSyntax : Failure → Bool
  | invalidSyntax _ | openLiteral _ => true
  | _ => false

def isReference : Failure → Bool
  | unknownReference _ | emptyTable _ => true
  | _ => false

end Failure

end RowSelect
