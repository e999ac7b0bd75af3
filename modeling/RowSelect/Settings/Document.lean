import RowSelect.Settings
import RowSelect.Text.Blank
import RowSelect.Yaml.Reader
import RowSelect.Yaml.Scalar.Printer

/-!
Settings as a YAML text: a mapping with a key for each setting. Every key may be left out, and other
keys are passed over.
-/

set_option autoImplicit false

namespace RowSelect.Settings

/-- The settings that may be written. A setting is written once at most. -/
structure Draft where
  database : Option (Option String) := none
  format : Option Report.Format := none
  logFilter : Option String := none
  logJson : Option Bool := none
  deriving DecidableEq, Repr

def Draft.fill {α : Type} (place : Option α) (value : Option α) : Option (Option α) :=
  if place.isSome then none else value.map some

/-- Adds an entry of the mapping, references in which are to values in `root`. -/
def Draft.add (root : Yaml) (d : Draft) (entry : Yaml × Yaml) : Option Draft :=
  let value := root.resolve entry.2
  match (root.resolve entry.1).string? with
  | some "database" => (fill d.database value.optionalString?).map ({ d with database := · })
  | some "format" =>
    (fill d.format (value.choice?.bind Report.Format.ofName?)).map ({ d with format := · })
  | some "log_filter" => (fill d.logFilter value.string?).map ({ d with logFilter := · })
  | some "log_json" => (fill d.logJson value.bool?).map ({ d with logJson := · })
  | some _ => some d
  | none => none

def Draft.settings (d : Draft) : Settings where
  database := d.database.getD standard.database
  format := d.format.getD standard.format
  logFilter := d.logFilter.getD standard.logFilter
  logJson := d.logJson.getD standard.logJson

def read (text : String) : Except SettingsFault Settings :=
  if Text.trim text.toList = [] then .ok standard
  else
    match Yaml.read? text with
    | some (.scalar _ "" .plain) => .ok standard
    | some (.mapping p entries) =>
      match entries.foldlM (Draft.add (.mapping p entries)) {} with
      | some d => .ok d.settings
      | none => .error .malformed
    | _ => .error .malformed

def write (s : Settings) : String :=
  let entry (key : String) (value : List Char) : String := key ++ ": " ++ .ofList value
  entry "database" ((s.database.map Yaml.writeString).getD "null\n".toList) ++
    entry "format" (s.format.name ++ "\n").toList ++
    entry "log_filter" (Yaml.writeString s.logFilter) ++
    entry "log_json" (if s.logJson then "true\n" else "false\n").toList

end RowSelect.Settings
