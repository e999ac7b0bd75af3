import RowSelect.Json.Lexeme

/-!
Reading a JSON text. A machine takes the lexical elements one by one; its state is the stack of
arrays and objects that are open, so a value nests as deeply as the stack is high.
-/

set_option autoImplicit false

namespace RowSelect.Json

/-- An open array or object with what has been read of it, last element first. -/
inductive Frame where
  | array (done : List Json)
  | object (done : List (String × Json)) (key : Option String)
  deriving DecidableEq, Repr

inductive Turn where
  | value
  | item
  | key
  | member
  | colon
  | more
  deriving DecidableEq, Repr

structure Reading where
  frames : List Frame
  turn : Turn
  whole : Option Json
  deriving DecidableEq, Repr

def maxDepth : Nat := 127

def Reading.put (v : Json) : List Frame → Option Reading
  | [] => some ⟨[], .more, some v⟩
  | .array done :: rest => some ⟨.array (v :: done) :: rest, .more, none⟩
  | .object done (some k) :: rest => some ⟨.object ((k, v) :: done) none :: rest, .more, none⟩
  | .object _ none :: _ => none

def Reading.push (frame : Frame) (turn : Turn) (frames : List Frame) : Option Reading :=
  if frames.length < maxDepth then some ⟨frame :: frames, turn, none⟩ else none

def Reading.step (r : Reading) (x : Lexeme) : Option Reading :=
  match r.turn, x, r.frames with
  | .value, .scalar v, fs | .item, .scalar v, fs => put v fs
  | .value, .openArray, fs | .item, .openArray, fs => push (.array []) .item fs
  | .value, .openObject, fs | .item, .openObject, fs => push (.object [] none) .member fs
  | .item, .closeArray, .array done :: fs | .more, .closeArray, .array done :: fs =>
    put (.array done.reverse) fs
  | .key, .scalar (.string k), .object done _ :: fs
  | .member, .scalar (.string k), .object done _ :: fs =>
    some ⟨.object done (some k) :: fs, .colon, none⟩
  | .member, .closeObject, .object done _ :: fs | .more, .closeObject, .object done _ :: fs =>
    put (.object done.reverse) fs
  | .colon, .colon, fs => some ⟨fs, .value, none⟩
  | .more, .comma, .array done :: fs => some ⟨.array done :: fs, .value, none⟩
  | .more, .comma, .object done key :: fs => some ⟨.object done key :: fs, .key, none⟩
  | _, _, _ => none

def readDocumentBy? (number? : Numeral → Option Number) (text : String) : Option Json := do
  let xs ← lexemes? number? text.toList
  let r ← xs.foldlM Reading.step ⟨[], .value, none⟩
  r.whole

def readDocument? (text : String) : Option Json := readDocumentBy? Number.ofScaled? text

def read? (text : String) : Option Json := (readDocument? text).map distinct

end RowSelect.Json
