import RowSelect.Json

/-!
Writing JSON values, compactly or with an indent of two spaces. Only quotes, backslashes and control
characters are escaped.
-/

set_option autoImplicit false

namespace RowSelect.Json

def writeChar (c : Char) : List Char :=
  if c = '"' then ['\\', '"']
  else if c = '\\' then ['\\', '\\']
  else if c = '\x08' then ['\\', 'b']
  else if c = '\x0c' then ['\\', 'f']
  else if c = '\n' then ['\\', 'n']
  else if c = '\r' then ['\\', 'r']
  else if c = '\t' then ['\\', 't']
  else if c.toNat < 0x20 then
    ['\\', 'u', '0', '0', Nat.digitChar (c.toNat / 16), Nat.digitChar (c.toNat % 16)]
  else [c]

def writeString (s : String) : List Char := '"' :: s.toList.flatMap writeChar ++ ['"']

def writeScalar : Json → List Char
  | .bool true => ['t', 'r', 'u', 'e']
  | .bool false => ['f', 'a', 'l', 's', 'e']
  | .number n => n.text
  | .string s => writeString s
  | _ => ['n', 'u', 'l', 'l']

mutual

def writeCompact : Json → List Char
  | .array items => '[' :: writeItems items ++ [']']
  | .object members => '\x7b' :: writeMembers members ++ ['\x7d']
  | v => writeScalar v

def writeItems : List Json → List Char
  | [] => []
  | [v] => writeCompact v
  | v :: rest => writeCompact v ++ ',' :: writeItems rest

def writeMembers : List (String × Json) → List Char
  | [] => []
  | [(name, v)] => writeString name ++ ':' :: writeCompact v
  | (name, v) :: rest => writeString name ++ ':' :: writeCompact v ++ ',' :: writeMembers rest

end

def newline (level : Nat) : List Char := '\n' :: List.replicate (2 * level) ' '

mutual

def writePretty (level : Nat) : Json → List Char
  | .array [] => ['[', ']']
  | .object [] => ['\x7b', '\x7d']
  | .array items => '[' :: writeItemLines (level + 1) items ++ newline level ++ [']']
  | .object members => '\x7b' :: writeMemberLines (level + 1) members ++ newline level ++ ['\x7d']
  | v => writeScalar v

def writeItemLines (level : Nat) : List Json → List Char
  | [] => []
  | [v] => newline level ++ writePretty level v
  | v :: rest => newline level ++ writePretty level v ++ ',' :: writeItemLines level rest

def writeMemberLines (level : Nat) : List (String × Json) → List Char
  | [] => []
  | [(name, v)] => newline level ++ writeString name ++ ':' :: ' ' :: writePretty level v
  | (name, v) :: rest =>
    newline level ++ writeString name ++ ':' :: ' ' :: writePretty level v ++
      ',' :: writeMemberLines level rest

end

def compact (v : Json) : String := .ofList (writeCompact v)

def pretty (v : Json) : String := .ofList (writePretty 0 v)

end RowSelect.Json
