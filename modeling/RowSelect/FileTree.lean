import RowSelect.Surroundings

/-!
Files as a value. Directories are there because files are in them, or because they are said to be.
-/

set_option autoImplicit false

namespace RowSelect

/-- Where names lead on from: a number of levels above the working directory, or the root. -/
inductive Origin where
  | above (levels : Nat)
  | root
  deriving DecidableEq, Repr

structure Location where
  origin : Origin
  names : List String
  deriving DecidableEq, Repr

namespace Location

def here : Location := ⟨.above 0, []⟩

def root : Location := ⟨.root, []⟩

def child (l : Location) (name : String) : Location := ⟨l.origin, l.names ++ [name]⟩

def parent (l : Location) : Location :=
  match l.origin, l.names with
  | .above n, [] => ⟨.above (n + 1), []⟩
  | origin, names => ⟨origin, names.dropLast⟩

def isWithin (l outer : Location) : Bool :=
  l.origin == outer.origin && outer.names.isPrefixOf l.names

end Location

structure FileTree where
  files : List (Location × List UInt8)
  directories : List Location
  deriving DecidableEq, Repr

namespace FileTree

inductive Entry where
  | file (content : List UInt8)
  | directory
  deriving DecidableEq, Repr

def splitSlashes : List Char → List (List Char)
  | [] => [[]]
  | c :: cs =>
    if c = '/' then [] :: splitSlashes cs
    else
      match splitSlashes cs with
      | [] => [[c]]
      | part :: parts => (c :: part) :: parts

def names (path : String) : List String := (splitSlashes path.toList).map String.ofList

def entry? (t : FileTree) (l : Location) : Option Entry :=
  match t.files.lookup l with
  | some content => some (.file content)
  | none =>
    if l.names = [] ∨ l ∈ t.directories ∨ t.files.any (fun f => f.1.isWithin l) then
      some .directory
    else none

def maxName : Nat := 255

def maxPath : Nat := 4095

def follow (t : FileTree) (l : Location) : List String → Except FileFault Location
  | [] => .ok l
  | name :: rest =>
    match t.entry? l with
    | none => .error .notFound
    | some (.file _) => .error .notDirectory
    | some .directory =>
      if name = "" ∨ name = "." then follow t l rest
      else if name = ".." then follow t l.parent rest
      else if maxName < name.utf8ByteSize then .error .nameTooLong
      else follow t (l.child name) rest

def startOf (path : String) : Except FileFault Location :=
  if '\x00' ∈ path.toList then .error .nulInPath
  else if path = "" then .error .notFound
  else if maxPath < path.utf8ByteSize then .error .nameTooLong
  else if path.toList.head? = some '/' then .ok .root
  else .ok .here

def locate (t : FileTree) (path : String) : Except FileFault Location := do
  t.follow (← startOf path) (names path)

def hasPath (t : FileTree) (path : String) : Bool :=
  match t.locate path with
  | .ok place => (t.entry? place).isSome
  | .error _ => false

def readText (t : FileTree) (path : String) : Except FileFault String := do
  match t.entry? (← t.locate path) with
  | none => throw .notFound
  | some .directory => throw .isDirectory
  | some (.file content) =>
    match String.fromUTF8? ⟨content.toArray⟩ with
    | some text => return text
    | none => throw .notUtf8

def put (t : FileTree) (l : Location) (content : List UInt8) : FileTree :=
  { t with files := (l, content) :: t.files.filter (·.1 != l) }

def writeText (t : FileTree) (path : String) (text : String) : Except FileFault FileTree := do
  let ns := names path
  let whole := (ns.reverse.dropWhile (· = "")).reverse
  let start ← startOf path
  if whole ≠ ns then
    let _ ← t.follow start (whole.dropLast ++ ["."])
    throw .isDirectory
  let l ← t.follow start ns
  match t.entry? l with
  | some .directory => throw .isDirectory
  | _ => return t.put l text.toUTF8.data.toList

/-- The value of a variable. An environment is a row of texts, each a name and a value with an
equals sign between them; a name that is looked up may have one in it. -/
def findVariable (environment : Fields String) (name : String) : Option String :=
  let start := name.toList ++ ['=']
  if name = "" then none
  else environment.findSome? fun (n, v) =>
    let text := n.toList ++ '=' :: v.toList
    if start.isPrefixOf text then some (.ofList (text.drop start.length)) else none

def surroundings (t : FileTree) (environment : Fields String) (home : Option String) :
    Surroundings Id where
  lookup := findVariable environment
  recordedHome := home
  readText := t.readText
  hasPath := t.hasPath

end FileTree

end RowSelect
