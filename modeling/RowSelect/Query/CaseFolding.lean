import RowSelect.Query.Lexing
import RowSelect.Text.LowerCase

/-!
Case folding of a query. Keywords and identifiers are written in any case; a quoted literal keeps
its own, so the text is lower-cased around the first one.
-/

set_option autoImplicit false

namespace RowSelect.Query

open RowSelect.Text

/-- Lower-cases a text except for its first quoted literal, or gives the byte of the first quote if
it is not closed. -/
def foldCase (text : List Char) : Except Nat (List Char) :=
  let before := text.takeWhile (!isQuote ·)
  match text.dropWhile (!isQuote ·) with
  | [] => .ok (lower text)
  | quote :: after =>
    match lexLiteral? quote after with
    | none => .error (utf8Length before)
    | some literal => .ok (lower before ++ literal.spelling ++ lower literal.rest)

end RowSelect.Query
