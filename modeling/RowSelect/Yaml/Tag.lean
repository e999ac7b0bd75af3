import RowSelect.Number.Digits
import RowSelect.Yaml.Cursor

/-!
Tags of values. A tag is a row of bytes, written as a handle, which stands for the start of it, and
the rest. Bytes may be escaped by a percent sign and two hexadecimal digits.
-/

set_option autoImplicit false

namespace RowSelect.Yaml

def isTagChar (c : Char) : Bool := isNameChar c || ";/?:@&=+$.!~*'()".toList.contains c

def sequenceLength? (byte : Nat) : Option Nat :=
  if byte < 0x80 then some 1
  else if byte / 0x20 = 0x6 then some 2
  else if byte / 0x10 = 0xe then some 3
  else if byte / 0x8 = 0x1e then some 4
  else none

/-- The bytes that come first, as many characters as belong to a tag, with the text after them.
`missing` escaped bytes have to follow. -/
def tagBytes? (brackets : Bool) (missing : Nat) : List Char → Option (List UInt8 × List Char)
  | [] => if missing = 0 then some ([], []) else none
  | '%' :: a :: b :: rest => do
    let byte ← hexValue? [a, b]
    let missing ←
      if missing = 0 then (sequenceLength? byte).map (· - 1)
      else if byte / 0x40 = 0x2 then some (missing - 1) else none
    let (more, rest) ← tagBytes? brackets missing rest
    return (.ofNat byte :: more, rest)
  | c :: rest =>
    if missing ≠ 0 ∨ c = '%' then none
    else if isTagChar c || (brackets && ",[]".toList.contains c) then
      (tagBytes? brackets 0 rest).map fun (more, rest) => (.ofNat c.toNat :: more, rest)
    else some ([], c :: rest)

def tagText? (brackets : Bool) (c : Cursor) : Option (List UInt8 × Cursor) := do
  let (bytes, rest) ← tagBytes? brackets 0 c.rest
  let n := c.rest.length - rest.length
  if n = 0 then none else some (bytes.takeWhile (· != 0), c.advance n)

def bytesOf (cs : List Char) : List UInt8 := cs.map fun c => .ofNat c.toNat

def standardHandles : List (List Char × List UInt8) :=
  [(['!'], bytesOf ['!']), (['!', '!'], bytesOf "tag:yaml.org,2002:".toList)]

def standardTag (name : String) : List UInt8 := bytesOf ("tag:yaml.org,2002:" ++ name).toList

def handle (c : Cursor) : List Char :=
  let name := (c.rest.drop 1).takeWhile isNameChar
  if (c.rest.drop (name.length + 1)).head? = some '!' then '!' :: name ++ ['!'] else ['!']

/-- The tag at a position, with the position behind it. A tag in angle brackets has no handle, and
neither has a mere exclamation mark. -/
def tag? (handles : List (List Char × List UInt8)) (flow : Bool) (c : Cursor) :
    Option (List UInt8 × Cursor) := do
  let (bytes, c) ←
    if (c.rest.drop 1).head? = some '<' then do
      let (bytes, c) ← tagText? true (c.advance 2)
      if c.rest.head? = some '>' then some (bytes, c.advance 1) else none
    else
      let used := handle c
      let behind := c.advance used.length
      if used = ['!'] ∧ ¬(behind.rest.head?.any fun d => isTagChar d || d == '%') then
        some (bytesOf ['!'], behind)
      else do
        let (bytes, c) ← tagText? false behind
        if used = ['!'] ∧ bytes = [] then some (bytesOf ['!'], c)
        else
          let start ← (handles ++ standardHandles).lookup used
          some (start ++ bytes, c)
  if gapNext c.rest ∨ (flow ∧ c.rest.head? = some ',') then some (bytes, c) else none

end RowSelect.Yaml
