import RowSelect.Query.Token
import RowSelect.Text.Alphabetic
import RowSelect.Text.Numeric
import RowSelect.Text.Blank

/-!
Splitting a text into tokens.

White space separates tokens and is dropped. Every other character belongs to exactly one token, and
`Lexed` keeps the characters that spell a token next to it. The only failure is a quote that is not
closed.
-/

set_option autoImplicit false

namespace RowSelect.Query

open RowSelect.Text

def isQuote (c : Char) : Bool := c == '\'' || c == '"'

def isSeparator (c : Char) : Bool := c == ',' || c == ' '

def isWordStart (c : Char) : Bool := isAlphabetic c || c == '_'

def isWordChar (c : Char) : Bool := isAlphabetic c || isNumeric c || c == '_' || c == '.'

structure Lexed where
  token : Token
  spelling : List Char
  rest : List Char
  deriving DecidableEq, Repr

def lexLiteral? (quote : Char) (cs : List Char) : Option Lexed :=
  let body := cs.takeWhile (· != quote)
  match cs.dropWhile (· != quote) with
  | [] => none
  | _ :: rest => some ⟨.literal (.ofList body), quote :: body ++ [quote], rest⟩

def digitNext (cs : List Char) : Bool :=
  match cs.dropWhile isSeparator with
  | c :: _ => c.isDigit
  | [] => false

/-- The part of the text that continues a number, and the rest. Digits and dots continue it, and so
do separators with a digit behind them. -/
def splitNumber : List Char → List Char × List Char
  | [] => ([], [])
  | c :: cs =>
    if c.isDigit || c == '.' || (isSeparator c && digitNext cs) then
      let (more, rest) := splitNumber cs
      (c :: more, rest)
    else ([], c :: cs)

def lexComparison (c : Char) (cs : List Char) : Lexed :=
  match c, cs with
  | '<', '=' :: rest => ⟨.operator .le, ['<', '='], rest⟩
  | '<', _ => ⟨.operator .lt, ['<'], cs⟩
  | '>', '=' :: rest => ⟨.operator .ge, ['>', '='], rest⟩
  | '>', _ => ⟨.operator .gt, ['>'], cs⟩
  | _, _ => ⟨.operator .eq, [c], cs⟩

def lex? (c : Char) (cs : List Char) : Option Lexed :=
  if c = ',' then some ⟨.comma, [c], cs⟩
  else if c = ';' then some ⟨.semicolon, [c], cs⟩
  else if c = '=' ∨ c = '<' ∨ c = '>' then some (lexComparison c cs)
  else if isQuote c then lexLiteral? c cs
  else if c.isDigit then
    let (more, rest) := splitNumber cs
    some ⟨.number (.ofList (c :: more)), c :: more, rest⟩
  else if isWordStart c then
    let spelling := c :: cs.takeWhile isWordChar
    some ⟨.word (.ofList spelling), spelling, cs.dropWhile isWordChar⟩
  else some ⟨.other c, [c], cs⟩

theorem splitNumber_append (cs : List Char) :
    (splitNumber cs).1 ++ (splitNumber cs).2 = cs := by
  fun_induction splitNumber cs <;> simp_all

theorem lexComparison_append {c : Char} {cs : List Char} :
    (lexComparison c cs).spelling ++ (lexComparison c cs).rest = c :: cs := by
  unfold lexComparison; split <;> simp

theorem lex?_append {c : Char} {cs : List Char} {x : Lexed} (h : lex? c cs = some x) :
    x.spelling ++ x.rest = c :: cs := by
  unfold lex? at h
  split at h
  · cases h; rfl
  split at h
  · cases h; rfl
  split at h
  · cases h; exact lexComparison_append
  split at h
  · unfold lexLiteral? at h
    have hs := List.takeWhile_append_dropWhile (p := (· != c)) (l := cs)
    dsimp only at h
    split at h
    · cases h
    · next q rest hq =>
      have hqc : q = c := by
        have := List.head?_dropWhile_not (· != c) cs
        simp_all
      cases h
      subst hqc
      rw [hq] at hs
      simpa using hs
  split at h
  · cases h; simp [splitNumber_append]
  split at h
  · cases h; simp [List.takeWhile_append_dropWhile]
  · cases h; rfl

theorem lex?_spelling_ne_nil {c : Char} {cs : List Char} {x : Lexed} (h : lex? c cs = some x) :
    x.spelling ≠ [] := by
  unfold lex? lexLiteral? lexComparison at h
  grind

theorem lex?_rest_length {c : Char} {cs : List Char} {x : Lexed} (h : lex? c cs = some x) :
    x.rest.length < (c :: cs).length := by
  have ha := congrArg List.length (lex?_append h)
  have hp := List.length_pos_iff.2 (lex?_spelling_ne_nil h)
  simp only [List.length_append] at ha
  omega

/-- The tokens of a text that starts at byte `offset`, or the byte of a quote that is not closed. -/
def tokenizeFrom (offset : Nat) : List Char → Except Nat (List Located)
  | [] => .ok []
  | c :: cs =>
    if isBlank c then tokenizeFrom (offset + c.utf8Size) cs
    else
      match _h : lex? c cs with
      | none => .error offset
      | some x =>
        match tokenizeFrom (offset + utf8Length x.spelling) x.rest with
        | .ok later => .ok (⟨offset, x.token⟩ :: later)
        | .error quote => .error quote
termination_by cs => cs.length
decreasing_by
  · simp
  · exact lex?_rest_length _h

def tokenize (text : List Char) : Except Nat (List Located) := tokenizeFrom 0 text

end RowSelect.Query
