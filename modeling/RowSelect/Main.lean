import RowSelect.Command

/-!
The program on the machine it runs on.
-/

set_option autoImplicit false

open RowSelect

def faultOf : IO.Error → FileFault
  | .noFileOrDirectory .. => .notFound
  | .inappropriateType _ 20 _ => .notDirectory
  | .inappropriateType .. => .isDirectory
  | .invalidArgument _ 36 _ => .nameTooLong
  | e => .other (toString e)

def machine : Surroundings IO where
  lookup name := IO.getEnv name
  recordedHome := return none
  readText path := do
    match ← (IO.FS.readBinFile path).toBaseIO with
    | .error e => return .error (faultOf e)
    | .ok bytes =>
      match String.fromUTF8? bytes with
      | some text => return .ok text
      | none => return .error .notUtf8
  hasPath path := do
    match ← (IO.FS.readBinFile path).toBaseIO with
    | .ok _ => return true
    | .error e =>
      match faultOf e with
      | .notFound | .notDirectory | .nameTooLong => return false
      | _ => return true

def main (args : List String) : IO UInt32 := do
  let terminal ← (← IO.getStdout).isTty
  let outcome ← Command.answer machine args terminal
  IO.print outcome.output
  match outcome.complaint with
  | some c => IO.eprint c.text
  | none =>
    if outcome.code = 2 then IO.eprint Command.usage
    else if outcome.code = 101 then IO.eprintln Report.Grid.tooWide
  return .ofNat outcome.code
