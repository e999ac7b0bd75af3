import RowSelect.Surroundings
import RowSelect.Text.Alphabetic
import RowSelect.Text.Numeric

/-!
Variables and the home directory in paths.

`$NAME` and `${NAME}` stand for the value of a variable, `${NAME:-text}` for the text if the
variable is not set, `$$` for a dollar sign. A tilde at the start of the path, alone or before a
slash, stands for the home directory.
-/

set_option autoImplicit false

namespace RowSelect.Path

open RowSelect.Text

inductive Piece where
  | text (cs : List Char)
  | named (name : List Char) (default? : Option (List Char))
  deriving DecidableEq, Repr

def isNameChar (c : Char) : Bool := isAlphabetic c || isNumeric c || c == '_'

def splitDefault : List Char → Option (List Char × List Char)
  | ':' :: '-' :: rest => some ([], rest)
  | c :: rest => (splitDefault rest).map fun (name, text) => (c :: name, text)
  | [] => none

def Piece.ofBraced (inner : List Char) : Piece :=
  match splitDefault inner with
  | some (c :: name, value) => .named (c :: name) (some value)
  | _ => .named inner none

/-- The parts of a path. A dollar sign that starts none of the forms above is text. -/
def pieces : List Char → List Piece
  | [] => []
  | '$' :: '\x7b' :: rest =>
    if '\x7d' ∈ rest then
      .ofBraced (rest.takeWhile (· != '\x7d')) :: pieces ((rest.dropWhile (· != '\x7d')).drop 1)
    else .text ['$', '\x7b'] :: pieces rest
  | '$' :: '$' :: rest => .text ['$'] :: pieces rest
  | '$' :: c :: rest =>
    if isNameChar c then
      .named (c :: rest.takeWhile isNameChar) none :: pieces (rest.dropWhile isNameChar)
    else .text ['$'] :: pieces (c :: rest)
  | c :: rest => .text [c] :: pieces rest
termination_by cs => cs.length
decreasing_by
  all_goals simp only [List.length_cons, List.length_drop]
  · have := (List.dropWhile_sublist (· != '\x7d') (l := rest)).length_le
    omega
  · omega
  · omega
  · have := (List.dropWhile_sublist isNameChar (l := rest)).length_le
    omega
  · omega
  · omega

section

variable {m : Type → Type} [Monad m]

def Piece.expand (s : Surroundings m) (path : String) :
    Piece → ExceptT SettingsFault m (List Char)
  | .text cs => return cs
  | .named name default? => do
    match ← ExceptT.lift (s.lookup (.ofList name)), default? with
    | some value, _ => return value.toList
    | none, some value => return value
    | none, none => throw (.unsetVariable path (.ofList name))

def homeDirectory? (s : Surroundings m) : m (Option String) := do
  match ← s.lookup "HOME" with
  | some home => if home = "" then s.recordedHome else return some home
  | none => s.recordedHome

def expandHome (s : Surroundings m) (cs : List Char) : m (List Char) := do
  match cs with
  | '~' :: rest =>
    if rest = [] ∨ rest.head? = some '/' then
      match ← homeDirectory? s with
      | some home => return home.toList ++ rest
      | none => return cs
    else return cs
  | _ => return cs

/-- The path with its variables and its home directory put in. A tilde that comes out of a variable
is none of the path's own. -/
def expand (s : Surroundings m) (path : String) : ExceptT SettingsFault m String := do
  let parts ← (pieces path.toList).mapM (Piece.expand s path)
  let text := parts.flatten
  if path.toList.head? = some '~' then
    return .ofList (← ExceptT.lift (expandHome s text))
  else return .ofList text

end

def join (directory name : String) : String :=
  if directory = "" ∨ directory.toList.getLast? = some '/' then directory ++ name
  else directory ++ "/" ++ name

end RowSelect.Path
