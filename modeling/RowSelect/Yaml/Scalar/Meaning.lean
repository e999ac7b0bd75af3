import RowSelect.Number.Numeral
import RowSelect.Yaml.Tag
import RowSelect.Yaml

/-!
What scalars stand for. A plain scalar may be a word for nothing, a truth value or a number; a tag
says what a value is meant to be.
-/

set_option autoImplicit false

namespace RowSelect.Yaml

def isNull (text : String) : Bool := ["~", "null", "Null", "NULL"].contains text

def boolean? (text : String) : Option Bool :=
  if ["true", "True", "TRUE"].contains text then some true
  else if ["false", "False", "FALSE"].contains text then some false
  else none

def dropPlus (cs : List Char) : List Char :=
  match cs with
  | '+' :: rest => rest
  | _ => cs

def dropSign (cs : List Char) : List Char :=
  match cs with
  | '+' :: rest | '-' :: rest => rest
  | _ => cs

def radixDigits? : List Char → Option (Nat × List Char)
  | '0' :: 'x' :: ds => some (16, ds)
  | '0' :: 'o' :: ds => some (8, ds)
  | '0' :: 'b' :: ds => some (2, ds)
  | _ => none

/-- Whether the text is a whole number with a mark for its base that fits 128 bits, those of a
negative one in two's complement. -/
def isRadixNumber (cs : List Char) : Bool :=
  let (limit, body) := match cs with
    | '-' :: rest => (0x80000000000000000000000000000001, rest)
    | _ => (0x100000000000000000000000000000000, dropPlus cs)
  match radixDigits? body with
  | some (base, ds) =>
    ds ≠ [] && ds.all (fun c => (hexDigit? c).any (· < base)) &&
      ds.foldl (fun n c => n * base + (hexDigit? c).getD 0) 0 < limit
  | none => false

def numeral? (cs : List Char) : Option Numeral :=
  let negative := cs.head? == some '-'
  let body := dropSign cs
  let whole := body.takeWhile Char.isDigit
  let rest := body.dropWhile Char.isDigit
  let fraction := rest.head? == some '.'
  let digits := if fraction then (rest.drop 1).takeWhile Char.isDigit else []
  let tail := if fraction then (rest.drop 1).dropWhile Char.isDigit else rest
  let power := dropSign (tail.drop 1)
  if whole = [] ∧ digits = [] then none
  else if tail = [] then some ⟨negative, whole, some digits, none⟩
  else if (tail.head? = some 'e' ∨ tail.head? = some 'E') ∧ power ≠ [] ∧ power.all Char.isDigit then
    let e : Int := digitsValue power
    some ⟨negative, whole, some digits, some (if (tail.drop 1).head? = some '-' then -e else e)⟩
  else none

def extremes : List String :=
  [".inf", ".Inf", ".INF", "+.inf", "+.Inf", "+.INF", "-.inf", "-.Inf", "-.INF", ".nan", ".NaN",
    ".NAN"]

def isZeroPadded (cs : List Char) : Bool :=
  let ds := dropSign cs
  ds.head? == some '0' && 1 < ds.length && ds.all Char.isDigit

def isNumber (cs : List Char) : Bool :=
  isRadixNumber cs || isZeroPadded cs || extremes.contains (.ofList cs) ||
    ((numeral? cs).bind Numeral.toBinary64?).isSome

def meansOther (text : String) : Bool :=
  text = "" || isNull text || (boolean? text).isSome || isNumber text.toList

def string? : Yaml → Option String
  | scalar _ text _ => some text
  | _ => none

/-- The string that a value is, if it is none of the ways to write nothing; they are plain. A tag
makes anything else a string, and the tag for nothing allows nothing else. -/
def optionalString? : Yaml → Option (Option String)
  | scalar p text .plain =>
    match p.tag with
    | none => some (if text = "" ∨ isNull text then none else some text)
    | some t =>
      if t ≠ standardTag "null" then some (some text)
      else if isNull text then some none
      else none
  | scalar _ text _ => some (some text)
  | _ => none

def bool? : Yaml → Option Bool
  | scalar _ text .plain => boolean? text
  | scalar p text .literal => if p.tag = some (standardTag "bool") then boolean? text else none
  | _ => none

def choice? : Yaml → Option String
  | scalar p text style =>
    match (p.tag.bind fun
      | 0x21 :: name => String.fromUTF8? ⟨(if name = [] then [0x21] else name).toArray⟩
      | _ => none) with
    | some name => if style = .plain ∧ (text = "" ∨ isNull text) then some name else none
    | none => some text
  | _ => none

end RowSelect.Yaml
