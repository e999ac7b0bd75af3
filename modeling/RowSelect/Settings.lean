import RowSelect.Report
import RowSelect.Surroundings
import RowSelect.Path.Expansion

/-!
The settings of the command line: where the database is, how results are written and what is logged.
-/

set_option autoImplicit false

namespace RowSelect

structure Settings where
  database : Option String
  format : Report.Format
  logFilter : String
  logJson : Bool
  deriving DecidableEq, Repr

namespace Settings

def standard : Settings := ⟨none, .table, "warn", false⟩

def databasePath {m : Type → Type} [Monad m] (s : Surroundings m) (settings : Settings) :
    ExceptT SettingsFault m (Option String) :=
  match settings.database with
  | none => return none
  | some path => do return some (← Path.expand s path)

end Settings

end RowSelect
