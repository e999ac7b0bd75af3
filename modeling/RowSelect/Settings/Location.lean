import RowSelect.Settings.Document

/-!
Where the settings are kept, and reading them from there.
-/

set_option autoImplicit false

namespace RowSelect.Settings

variable {m : Type → Type} [Monad m]

def fileVariable : String := "P8_QUERY_CONFIG"

def directory (s : Surroundings m) : ExceptT SettingsFault m String := do
  match ← ExceptT.lift (s.lookup "HOME") with
  | some home => return Path.join home ".p8"
  | none => throw .noHome

def file (s : Surroundings m) : ExceptT SettingsFault m String := do
  match ← ExceptT.lift (s.lookup fileVariable) with
  | some path => Path.expand s path
  | none => return Path.join (← directory s) "query.yaml"

def loadFrom (s : Surroundings m) (path : String) : ExceptT Failure m Settings := do
  match ← ExceptT.lift (s.readText path) with
  | .error e => throw (.file e)
  | .ok text =>
    match read text with
    | .ok settings => return settings
    | .error e => throw (.settings e)

def load (s : Surroundings m) : ExceptT Failure m Settings := do
  let path ← ExceptT.adapt .settings (file s)
  if ← ExceptT.lift (s.hasPath path) then loadFrom s path else return standard

end RowSelect.Settings
