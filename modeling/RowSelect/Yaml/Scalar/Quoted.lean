import RowSelect.Number.Digits
import RowSelect.Yaml.Folding

/-!
Scalars between quotes. Between single ones a quote is written twice; between double ones a
backslash starts an escape.
-/

set_option autoImplicit false

namespace RowSelect.Yaml

def letterEscapes : List (Char × Char) :=
  [('0', '\x00'), ('a', '\x07'), ('b', '\x08'), ('t', '\t'), ('\t', '\t'), ('n', '\n'),
    ('v', '\x0b'), ('f', '\x0c'), ('r', '\r'), ('e', '\x1b'), (' ', ' '), ('"', '"'), ('/', '/'),
    ('\\', '\\'), ('N', '\x85'), ('_', '\xa0'), ('L', '\u2028'), ('P', '\u2029')]

def escapeDigits (c : Char) : Nat := ([('x', 2), ('u', 4), ('U', 8)].lookup c).getD 0

def escape? (c : Char) (rest : List Char) : Option Char :=
  match escapeDigits c with
  | 0 => letterEscapes.lookup c
  | n => do
    let code ← if (rest.take n).length = n then hexValue? (rest.take n) else none
    if code.isValidChar then some (.ofNat code) else none

/-- Continues a quoted scalar up to its closing quote. A line that marks the start or the end of a
document is a fault. -/
def quotedFrom (double : Bool) (p : Progress) : List Char → Option Span
  | [] => none
  | c :: rest =>
    if isGap c then quotedFrom double (p.blank c) rest
    else if isBreak c then quotedFrom double (p.lineBreak c) rest
    else if (p.cursor (c :: rest)).atMarker then none
    else if ¬double ∧ c = '\'' ∧ rest.head? = some '\'' then
      quotedFrom double (p.put c [c, c]) (rest.drop 1)
    else if c = (if double then '"' else '\'') then
      some ⟨p.folded.reverse, (p.cursor (c :: rest)).advance 1, false⟩
    else if double ∧ c = '\\' then
      match rest with
      | [] => none
      | d :: more =>
        if isBreak d then quotedFrom double p.join more
        else
          match escape? d more with
          | some e =>
            let n := escapeDigits d
            quotedFrom double (p.put e (c :: d :: more.take n)) (more.drop n)
          | none => none
    else quotedFrom double (p.put c [c]) rest
termination_by cs => cs.length
decreasing_by all_goals simp; try omega

def quotedScalar (double : Bool) (c : Cursor) : Option Span := quotedFrom double (.start c) c.rest

end RowSelect.Yaml
