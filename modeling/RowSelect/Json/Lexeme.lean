import RowSelect.Json

/-!
The lexical elements of a JSON text (RFC 8259): brackets, commas, colons and scalars.
-/

set_option autoImplicit false

namespace RowSelect.Json

inductive Lexeme where
  | openArray
  | closeArray
  | openObject
  | closeObject
  | comma
  | colon
  | scalar (value : Json)
  deriving DecidableEq, Repr

def isSpace (c : Char) : Bool := c == ' ' || c == '\t' || c == '\n' || c == '\r'

/-- The text up to the quote that ends a string, its escapes still in it, and what follows. A
control character does not stand in a string as it is. -/
def stringBody : List Char → Option (List Char × List Char)
  | [] => none
  | '"' :: rest => some ([], rest)
  | '\\' :: c :: rest => (stringBody rest).map fun (body, tail) => ('\\' :: c :: body, tail)
  | c :: rest =>
    if c.toNat < 0x20 then none else (stringBody rest).map fun (body, tail) => (c :: body, tail)

inductive Piece where
  | char (c : Char)
  | unit (n : Nat)
  deriving DecidableEq, Repr

def escape? (c : Char) : Option Char :=
  if c = '"' ∨ c = '\\' ∨ c = '/' then some c
  else if c = 'b' then some '\x08'
  else if c = 'f' then some '\x0c'
  else if c = 'n' then some '\n'
  else if c = 'r' then some '\r'
  else if c = 't' then some '\t'
  else none

def pieces? : List Char → Option (List Piece)
  | [] => some []
  | '\\' :: 'u' :: a :: b :: c :: d :: rest => do
    some (.unit (← hexValue? [a, b, c, d]) :: (← pieces? rest))
  | '\\' :: c :: rest => do some (.char (← escape? c) :: (← pieces? rest))
  | c :: rest => do some (.char c :: (← pieces? rest))

/-- The characters that the elements spell. A high surrogate is followed by a low one, and neither
stands alone. -/
def spell? : List Piece → Option (List Char)
  | [] => some []
  | .char c :: rest => do some (c :: (← spell? rest))
  | .unit high :: .unit low :: rest =>
    if 0xD800 ≤ high ∧ high < 0xDC00 ∧ 0xDC00 ≤ low ∧ low < 0xE000 then do
      some (.ofNat (0x10000 + 0x400 * (high - 0xD800) + (low - 0xDC00)) :: (← spell? rest))
    else if 0xD800 ≤ high ∧ high < 0xE000 then none
    else do some (.ofNat high :: (← spell? (.unit low :: rest)))
  | .unit n :: rest =>
    if 0xD800 ≤ n ∧ n < 0xE000 then none else do some (.ofNat n :: (← spell? rest))

def isNumberChar (c : Char) : Bool :=
  c.isDigit || c == '-' || c == '+' || c == '.' || c == 'e' || c == 'E'

def exponent? (cs : List Char) : Option Int :=
  let (sign, ds) : Int × List Char :=
    match cs with
    | '+' :: rest => (1, rest)
    | '-' :: rest => (-1, rest)
    | _ => (1, cs)
  if ds ≠ [] ∧ ds.all Char.isDigit then some (sign * digitsValue ds) else none

def numeral? (cs : List Char) : Option Numeral :=
  let negative := cs.head? == some '-'
  let cs := if negative then cs.drop 1 else cs
  let whole := cs.takeWhile Char.isDigit
  let rest := cs.dropWhile Char.isDigit
  let fraction := rest.head? == some '.'
  let digits := if fraction then (rest.drop 1).takeWhile Char.isDigit else []
  let tail := if fraction then (rest.drop 1).dropWhile Char.isDigit else rest
  let power := tail.head? == some 'e' || tail.head? == some 'E'
  if whole = [] ∨ (whole.head? = some '0' ∧ whole.length ≠ 1) ∨ (fraction ∧ digits = []) ∨
      (¬power ∧ tail ≠ []) then none
  else
    let form (e : Option Int) : Numeral :=
      ⟨negative, whole, if fraction then some digits else none, e⟩
    if power then (exponent? (tail.drop 1)).map fun e => form (some e) else some (form none)

def literal? (cs : List Char) : Option Json :=
  if cs = ['n', 'u', 'l', 'l'] then some .null
  else if cs = ['t', 'r', 'u', 'e'] then some (.bool true)
  else if cs = ['f', 'a', 'l', 's', 'e'] then some (.bool false)
  else none

def mark? (c : Char) : Option Lexeme :=
  if c = '[' then some .openArray
  else if c = ']' then some .closeArray
  else if c = '\x7b' then some .openObject
  else if c = '\x7d' then some .closeObject
  else if c = ',' then some .comma
  else if c = ':' then some .colon
  else none

theorem length_stringBody {cs body rest : List Char} (h : stringBody cs = some (body, rest)) :
    rest.length < cs.length := by
  fun_induction stringBody cs generalizing body rest with
  | case1 => simp at h
  | case2 => simp_all
  | case3 _ _ ih =>
    obtain ⟨⟨_, _⟩, hr, he⟩ := Option.map_eq_some_iff.1 h
    have := ih hr
    simp_all; omega
  | case4 => simp at h
  | case5 _ _ _ _ _ ih =>
    obtain ⟨⟨_, _⟩, hr, he⟩ := Option.map_eq_some_iff.1 h
    have := ih hr
    simp_all; omega

theorem length_dropWhile_le (p : Char → Bool) (cs : List Char) :
    (cs.dropWhile p).length ≤ cs.length := (List.dropWhile_sublist p).length_le

/-- The lexical elements of a text, or nothing if some part of it is none. What a numeral stands for
is a parameter. -/
def lexemes? (number? : Numeral → Option Number) : List Char → Option (List Lexeme)
  | [] => some []
  | c :: cs =>
    if isSpace c then lexemes? number? cs
    else
      match mark? c with
      | some m => do some (m :: (← lexemes? number? cs))
      | none =>
        if c = '"' then
          match _h : stringBody cs with
          | none => none
          | some (body, rest) => do
            let chars ← (pieces? body).bind spell?
            some (.scalar (.string (.ofList chars)) :: (← lexemes? number? rest))
        else if isNumberChar c then do
          let n ← (numeral? (c :: cs.takeWhile isNumberChar)).bind number?
          some (.scalar (.number n) :: (← lexemes? number? (cs.dropWhile isNumberChar)))
        else do
          let v ← literal? (c :: cs.takeWhile Char.isAlpha)
          some (.scalar v :: (← lexemes? number? (cs.dropWhile Char.isAlpha)))
termination_by cs => cs.length
decreasing_by
  all_goals simp only [List.length_cons]
  all_goals first
    | omega
    | exact Nat.lt_succ_of_lt (length_stringBody _h)
    | exact Nat.lt_succ_of_le (length_dropWhile_le _ _)

end RowSelect.Json
