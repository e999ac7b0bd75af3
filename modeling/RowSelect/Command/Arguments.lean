import RowSelect.Report

/-!
The arguments of the command line.

    [OPTIONS] run QUERY... | explain QUERY | tables | demo

Options stand before the command or after it. Each may be given once in either place; the one after
the command counts. Behind `--` nothing is an option.
-/

set_option autoImplicit false

namespace RowSelect.Command

structure Options where
  config : Option String := none
  database : Option String := none
  format : Option Report.Format := none
  logJson : Bool := false
  deriving DecidableEq, Repr

inductive Task where
  | run (queries : List String)
  | explain (query : String)
  | tables
  | demo
  deriving DecidableEq, Repr

inductive Invocation where
  | perform (options : Options) (task : Task)
  | help
  | version
  | misuse
  deriving DecidableEq, Repr

inductive Valued where
  | config
  | database
  | format
  deriving DecidableEq, Repr

def Valued.ofLong? (name : String) : Option Valued :=
  if name = "config" then some .config
  else if name = "db" then some .database
  else if name = "format" then some .format
  else none

def Valued.ofShort? (letter : Char) : Option Valued :=
  if letter = 'd' then some .database
  else if letter = 'f' then some .format
  else none

def Options.set (o : Options) (option : Valued) (value : String) : Option Options :=
  match option with
  | .config =>
    if o.config.isSome ∨ value = "" then none else some { o with config := some value }
  | .database =>
    if o.database.isSome ∨ value = "" then none else some { o with database := some value }
  | .format =>
    if o.format.isSome then none
    else (Report.Format.ofName? value).map fun f => { o with format := some f }

inductive Argument where
  | word (text : String)
  | divider
  | valued (option : Valued) (value : Option String)
  | logJson
  | help
  | version
  | unknown
  deriving DecidableEq, Repr

def splitLong (cs : List Char) : String × Option String :=
  match cs.dropWhile (· != '=') with
  | [] => (.ofList cs, none)
  | _ :: value => (.ofList (cs.takeWhile (· != '=')), some (.ofList value))

def Argument.ofString (arg : String) : Argument :=
  match arg.toList with
  | ['-', '-'] => .divider
  | '-' :: '-' :: cs =>
    match splitLong cs with
    | (name, value) =>
      match Valued.ofLong? name, value with
      | some option, value => .valued option value
      | none, none =>
        if name = "log-json" then .logJson
        else if name = "help" then .help
        else if name = "version" then .version
        else .unknown
      | none, some _ => .unknown
  | '-' :: letter :: cs =>
    match Valued.ofShort? letter, cs with
    | some option, [] => .valued option none
    | some option, '=' :: value => .valued option (some (.ofList value))
    | some option, value => .valued option (some (.ofList value))
    | none, _ =>
      if letter = 'h' then .help
      else if letter = 'V' then .version
      else .unknown
  | _ => .word arg

inductive Reading where
  | done (options : Options) (words : List String) (divided : Bool)
  | help
  | version
  | misuse
  deriving DecidableEq, Repr

def maxWords (command : String) : Option Nat :=
  if command = "run" then none else if command = "explain" then some 1 else some 0

/-- Reads arguments behind a command, or before there is one. Before it, reading stops at the first
word, and the words are it and everything behind it. Behind it, a word too many is not taken. -/
def readPlace (command : Option String) (o : Options) (words : List String) :
    List String → Reading
  | [] => .done o words false
  | arg :: rest =>
    match Argument.ofString arg with
    | .word text =>
      match command with
      | none => .done o (text :: rest) false
      | some c =>
        if (maxWords c).any (· ≤ words.length) then .misuse
        else readPlace command o (words ++ [text]) rest
    | .divider => .done o (words ++ rest) true
    | .logJson =>
      if o.logJson then .misuse
      else readPlace command { o with logJson := true } words rest
    | .valued option (some value) =>
      match o.set option value with
      | some o => readPlace command o words rest
      | none => .misuse
    | .valued option none =>
      match rest with
      | [] => .misuse
      | value :: rest =>
        match Argument.ofString value, o.set option value with
        | .word _, some o => readPlace command o words rest
        | _, _ => .misuse
    | .help => .help
    | .version => if command = none then .version else .misuse
    | .unknown => .misuse

def Task.ofWords? (command : String) (words : List String) : Option Task :=
  match command, words with
  | "run", query :: more => some (.run (query :: more))
  | "explain", [query] => some (.explain query)
  | "tables", [] => some .tables
  | "demo", [] => some .demo
  | _, _ => none

def commands : List String := ["run", "explain", "tables", "demo", "help"]

def databaseVariable : String := "P8_QUERY_DB"

/-- Whether the options of a place and the variable give a database or none, but not an empty
path. -/
def Options.admits (o : Options) (fromVariable : Option String) : Bool :=
  o.database.isSome || fromVariable != some ""

def Options.merge (before after : Options) (fromVariable : Option String) : Options where
  config := after.config.or before.config
  database := (after.database.or before.database).or fromVariable
  format := after.format.or before.format
  logJson := before.logJson || after.logJson

def Invocation.ofArguments (args : List String) (fromVariable : Option String) : Invocation :=
  match readPlace none {} [] args with
  | .help => .help
  | .version => .version
  | .misuse => .misuse
  | .done _ _ true => .misuse
  | .done _ [] false => .misuse
  | .done before (command :: rest) false =>
    if command = "help" then
      if rest.length ≤ 1 ∧ rest.all commands.contains then .help else .misuse
    else if command ∉ commands then .misuse
    else
      match readPlace command {} [] rest with
      | .help => .help
      | .version => .version
      | .misuse => .misuse
      | .done after words _ =>
        match Task.ofWords? command words with
        | none => .misuse
        | some task =>
          if before.admits fromVariable ∧ after.admits fromVariable then
            .perform (before.merge after fromVariable) task
          else .misuse

end RowSelect.Command
