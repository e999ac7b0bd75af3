import RowSelect.Yaml.Scalar.Meaning

/-!
Writing a string as the value of an entry, so that it reads back.

A string of several lines is literal if it can be; any other is plain if that reads back as the same
string, else between single quotes, or double ones if it has characters that need an escape.
-/

set_option autoImplicit false

namespace RowSelect.Yaml

def isPlainText (c : Char) : Bool :=
  c == '\n' || ('\x20' ≤ c && c ≤ '\x7e') ||
    ('\xa0' ≤ c && c != '\ufeff' && c != '\ufffe' && c != '\uffff')

def hasInnerMark (before : Bool) : List Char → Bool
  | [] => false
  | c :: rest =>
    (c == ':' && gapNext rest) || (c == '#' && before) || hasInnerMark (isGap c || isBreak c) rest

def hasMark (cs : List Char) : Bool :=
  match cs with
  | [] => false
  | c :: rest =>
    ",[]\x7b\x7d#&*!|>'\"%@\x60".toList.contains c ||
      ((c == '?' || c == ':' || c == '-') && gapNext rest) ||
      ['-', '-', '-'].isPrefixOf cs || ['.', '.', '.'].isPrefixOf cs || hasInnerMark false rest

def hasPair (p q : Char → Bool) : List Char → Bool
  | [] => false
  | [_] => false
  | a :: b :: rest => (p a && q b) || hasPair p q (b :: rest)

def needsEscape (cs : List Char) : Bool :=
  cs.any (!isPlainText ·) || hasPair (· == ' ') isBreak cs

def canBeLiteral (cs : List Char) : Bool := !needsEscape cs && cs.getLast? != some ' '

def canBeSingle (cs : List Char) : Bool := !needsEscape cs && !hasPair isBreak (· == ' ') cs

def canBePlain (cs : List Char) : Bool :=
  !needsEscape cs && !cs.any isBreak && cs.head? != some ' ' && cs.getLast? != some ' ' &&
    !hasMark cs

def margin : List Char := [' ', ' ']

def escapeByNumber (c : Char) : List Char :=
  let digits := (Nat.toDigits 16 c.toNat).map Char.toUpper
  let padded (n : Nat) : List Char := List.replicate (n - digits.length) '0' ++ digits
  if c.toNat < 0x100 then '\\' :: 'x' :: padded 2
  else if c.toNat < 0x10000 then '\\' :: 'u' :: padded 4
  else '\\' :: 'U' :: padded 8

def writeEscaped (c : Char) : List Char :=
  match [('"', '"'), ('\\', '\\'), ('\x00', '0'), ('\x07', 'a'), ('\x08', 'b'), ('\t', 't'),
    ('\n', 'n'), ('\x0b', 'v'), ('\x0c', 'f'), ('\r', 'r'), ('\x1b', 'e'), ('\x85', 'N'),
    ('\u2028', 'L'), ('\u2029', 'P')].lookup c with
  | some letter => ['\\', letter]
  | none => if isPlainText c then [c] else escapeByNumber c

def writeDouble (cs : List Char) : List Char := '"' :: cs.flatMap writeEscaped ++ ['"']

def indentLines (behindBreak : Bool) : List Char → List Char
  | [] => []
  | c :: rest =>
    if isBreak c then c :: indentLines true rest
    else (if behindBreak then margin else []) ++ c :: indentLines false rest

def writeSingle (cs : List Char) : List Char :=
  let body := indentLines false (cs.flatMap fun c => if c = '\'' then ['\'', '\''] else [c])
  '\'' :: body ++ (if cs.getLast?.any isBreak then margin else []) ++ ['\'']

/-- The marks of a literal scalar: the margin if the first line does not show it, and what becomes
of the line breaks at the end. -/
def literalMarks (cs : List Char) : List Char :=
  let width := if cs.head?.any (fun c => c == ' ' || isBreak c) then ['2'] else []
  let chomping := match cs.reverse with
    | [] => ['-']
    | c :: before =>
      if !isBreak c then ['-'] else if before.head?.all isBreak then ['+'] else []
  width ++ chomping

def writeLiteral (cs : List Char) : List Char :=
  let body := indentLines true cs
  '|' :: literalMarks cs ++ '\n' :: body ++ (if cs.getLast?.any isBreak then [] else ['\n'])

def writeString (text : String) : List Char :=
  let cs := text.toList
  if '\n' ∈ cs then if canBeLiteral cs then writeLiteral cs else writeDouble cs ++ ['\n']
  else
    let form :=
      if canBePlain cs ∧ ¬meansOther text then cs
      else if canBeSingle cs then writeSingle cs
      else writeDouble cs
    form ++ ['\n']

end RowSelect.Yaml
