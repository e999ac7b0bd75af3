import RowSelect.Command.Arguments
import RowSelect.Database.Document
import RowSelect.Query.Execution
import RowSelect.Settings.Location
import RowSelect.Text.Blank

/-!
The command line: queries on a database file, and what is written for them.
-/

set_option autoImplicit false

namespace RowSelect.Command

/-- A failure as it is reported: what was being done, or what went wrong, and the causes one behind
the other. -/
structure Complaint where
  headline : String
  causes : List String
  deriving DecidableEq, Repr

def causesOf : Failure → List String
  | .file f => [f.message]
  | .notJson => [""]
  | .record f => [f.message]
  | _ => []

namespace Complaint

def ofFailure (e : Failure) : Complaint := ⟨e.message, causesOf e⟩

def during (doing : String) (e : Failure) : Complaint := ⟨doing, e.message :: causesOf e⟩

def indent (margin : Nat) (label : List Char) (cause : String) : List Char :=
  label ++ cause.toList.flatMap fun c => if c = '\n' then '\n' :: List.replicate margin ' ' else [c]

def label (n : Nat) : List Char :=
  let digits := Nat.toDigits 10 n
  List.replicate (5 - digits.length) ' ' ++ digits ++ [':', ' ']

def text (c : Complaint) : String :=
  let lines : List (List Char) :=
    match c.causes with
    | [] => []
    | [cause] => ["\nCaused by:".toList, indent 4 (List.replicate 4 ' ') cause]
    | causes =>
      "\nCaused by:".toList :: causes.zipIdx.map fun (cause, n) => indent 7 (label n) cause
  "Error: " ++ c.headline ++ "\n" ++ .ofList (lines.flatMap (· ++ ['\n']))

end Complaint

structure Outcome where
  code : Nat
  output : String
  complaint : Option Complaint
  deriving DecidableEq, Repr

namespace Outcome

def success (output : String) : Outcome := ⟨0, output, none⟩

def failure (output : String) (c : Complaint) : Outcome := ⟨1, output, some c⟩

def misuse : Outcome := ⟨2, "", none⟩

def aborted (output : String) : Outcome := ⟨101, output, none⟩

def stopped (output : String) : Report.Fault → Outcome
  | .failure e => .failure output (.ofFailure e)
  | .width _ => .aborted output

end Outcome

/-- Runs queries one after the other up to the first that fails. An empty line stands between
results; it is written before the next query is run. -/
def runQueries (db : Database) (format : Report.Format) (color : Bool) (output : String) :
    List String → Outcome
  | [] => .success output
  | query :: rest =>
    match Query.execute db query with
    | .error e =>
      .failure output (.during ("Query failed: " ++ Text.trimString query) e)
    | .ok rows =>
      match Report.render rows format color with
      | .error e => .stopped output e
      | .ok text =>
        let output := output ++ text ++ "\n"
        runQueries db format color (if rest = [] then output else output ++ "\n") rest

def listTables (db : Database) (color : Bool) : String :=
  String.join (db.tables.map fun (name, t) =>
    let columns := match t.columns? with
      | some names => ", ".intercalate names
      | none => "(empty)"
    let name := if color then String.ofList (Report.Grid.bold name.toList) else name
    name ++ " [" ++ toString t.length ++ " rows]: " ++ columns ++ "\n")

def explain (query : String) : Outcome :=
  match Query.parse query with
  | .ok statement => .success (statement.toJson.pretty ++ "\n")
  | .error e => .failure "" (.ofFailure (.invalidSyntax e))

def sampleDatabase : Database :=
  let row (id : Nat) (fields : List (String × String)) : Record :=
    ("id", .ofNat id) :: fields.map fun (name, text) => (name, .string text)
  Database.empty
    |>.insert "employees" ⟨[
      row 1 [("name", "Alice"), ("phone", "12345678")],
      row 2 [("name", "Bob"), ("phone", "87654321")]]⟩
    |>.insert "monsters" ⟨[
      row 1 [("name", "Loch Ness Monster"), ("home", "Loch Ness, Scotland")],
      row 6 [("name", "Yeti"), ("home", "Himalaya Mountains")]]⟩

def sampleQueries : List String := [
  "SELECT employees.name FROM employees",
  "SELECT employees.id, employees.name FROM employees WHERE employees.id = 1",
  "SELECT monsters.id, monsters.name, monsters.home FROM monsters " ++
    "WHERE monsters.home = 'Himalaya Mountains'",
  "SELECT monsters.name, monsters.home FROM monsters WHERE monsters.id = employees.id"]

def cyan (text : String) : String := "\x1b[36m" ++ text ++ "\x1b[0m"

def demonstrate (format : Report.Format) (color : Bool) (output : String) : List String → Outcome
  | [] => .success output
  | query :: rest =>
    let heading := "> " ++ query
    let output := output ++ (if color then cyan heading else heading) ++ "\n"
    match Query.execute sampleDatabase query with
    | .error e => demonstrate format color (output ++ "error: " ++ e.message ++ "\n\n") rest
    | .ok rows =>
      match Report.render rows format color with
      | .error e => .stopped output e
      | .ok text => demonstrate format color (output ++ text ++ "\n\n") rest

section

variable {m : Type → Type} [Monad m]

/-- The settings that hold for an invocation: those of the file, changed by the options. -/
def settle (s : Surroundings m) (o : Options) : ExceptT Complaint m Settings := do
  let settings : Settings ←
    match o.config with
    | none => ExceptT.adapt Complaint.ofFailure (Settings.load s)
    | some path => do
      let path ← ExceptT.adapt (fun e => .ofFailure (.settings e)) (Path.expand s path)
      ExceptT.adapt (Complaint.during ("Cannot read config " ++ path)) (Settings.loadFrom s path)
  return {
    database := o.database.or settings.database
    format := o.format.getD settings.format
    logFilter := settings.logFilter
    logJson := o.logJson || settings.logJson }

def loadDatabase (s : Surroundings m) (path : String) : ExceptT Failure m Database := do
  match ← ExceptT.lift (s.readText path) with
  | .error e => throw (.file e)
  | .ok text =>
    match Database.read text with
    | .ok db => return db
    | .error e => throw e

def openDatabase (s : Surroundings m) (settings : Settings) : ExceptT Complaint m Database := do
  match ← ExceptT.adapt (fun e => .ofFailure (.settings e)) (settings.databasePath s) with
  | none =>
    throw ⟨"No database given: pass --db, set P8_QUERY_DB, or " ++
      "set \x60database\x60 in the config", []⟩
  | some path =>
    ExceptT.adapt (Complaint.during ("Cannot load database " ++ path)) (loadDatabase s path)

def perform (s : Surroundings m) (o : Options) (task : Task) (color : Bool) :
    ExceptT Complaint m Outcome := do
  let settings ← settle s o
  match task with
  | .run queries => return runQueries (← openDatabase s settings) settings.format color "" queries
  | .explain query => return explain query
  | .tables => return .success (listTables (← openDatabase s settings) color)
  | .demo => return demonstrate settings.format color "" sampleQueries

def usage : String :=
  "Run SELECT queries over JSON tables\n\n" ++
    "Usage: rem-query [OPTIONS] run QUERY... | explain QUERY | tables | demo\n\n" ++
    "Options: --config PATH, --db PATH, --format table|json|csv, --log-json, --help, --version\n"

def showsColor (s : Surroundings m) (terminal : Bool) : m Bool := do
  let forced ← s.lookup "CLICOLOR_FORCE"
  let refused ← s.lookup "NO_COLOR"
  let wanted ← s.lookup "CLICOLOR"
  return terminal && (forced.any (· != "0") || (refused.isNone && wanted != some "0"))

def answer (s : Surroundings m) (args : List String) (terminal : Bool) : m Outcome := do
  let color ← showsColor s terminal
  match Invocation.ofArguments args (← s.lookup databaseVariable) with
  | .help => return .success usage
  | .version => return .success "rem-query 0.1.0\n"
  | .misuse => return .misuse
  | .perform o task =>
    match ← (perform s o task color).run with
    | .ok outcome => return outcome
    | .error c => return .failure "" c

end

end RowSelect.Command
