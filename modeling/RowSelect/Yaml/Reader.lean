import RowSelect.Yaml.Layout

/-!
Reading a YAML text of one document.

    block  := properties ( scalar | sequence | mapping | flow sequence | flow mapping ) | reference
    flow   := properties ( scalar | flow sequence | flow mapping ) | reference

Anything may be missing where a value is expected, if properties are written or the collection goes
on or ends there.
-/

set_option autoImplicit false

namespace RowSelect.Yaml

def properties : List Lexeme → Properties × List Lexeme
  | .anchor n :: .tag t :: rest | .tag t :: .anchor n :: rest => (⟨some n, some t⟩, rest)
  | .anchor n :: rest => (⟨some n, none⟩, rest)
  | .tag t :: rest => (⟨none, some t⟩, rest)
  | xs => (.none, xs)

def Properties.ofScalar (p : Properties) : Properties :=
  ⟨p.anchor, p.tag.filter (· != bytesOf ['!'])⟩

/-- Where a value stands: in brackets, in a block collection, or as a key or value of a block
mapping, where a sequence need not be indented. -/
inductive Context where
  | flow
  | block
  | entry
  deriving DecidableEq, Repr

def nextIn (xs ends : List Lexeme) : Bool := xs.head?.any ends.contains

def itemEnds : List Lexeme := [.blockEntry, .blockEnd]

def entryEnds : List Lexeme := [.key, .value, .blockEnd]

mutual

def node? (context : Context) (xs : List Lexeme) : Nat → Option (Yaml × List Lexeme)
  | 0 => none
  | fuel + 1 =>
    match xs with
    | .reference n :: rest => some (.reference n, rest)
    | _ =>
      let (p, xs) := properties xs
      match xs with
      | .scalar text style :: rest => some (.scalar p.ofScalar text style, rest)
      | .openSequence :: rest =>
        (flowItems? true rest fuel).map fun (items, rest) => (.sequence p items, rest)
      | .openMapping :: rest =>
        (flowEntries? true rest fuel).map fun (entries, rest) => (.mapping p entries, rest)
      | x :: rest =>
        if context = .entry ∧ x = .blockEntry then
          (flatItems? xs fuel).map fun (items, rest) => (.sequence p items, rest)
        else if context ≠ .flow ∧ x = .blockSequence then
          (blockItems? rest fuel).map fun (items, rest) => (.sequence p items, rest)
        else if context ≠ .flow ∧ x = .blockMapping then
          (blockEntries? rest fuel).map fun (entries, rest) => (.mapping p entries, rest)
        else if p.isNone then none
        else some (.scalar p "" .plain, xs)
      | [] => if p.isNone then none else some (.scalar p "" .plain, [])

def optionalNode? (context : Context) (ends xs : List Lexeme) : Nat → Option (Yaml × List Lexeme)
  | 0 => none
  | fuel + 1 => if nextIn xs ends then some (nothing, xs) else node? context xs fuel

def blockItems? (xs : List Lexeme) : Nat → Option (List Yaml × List Lexeme)
  | 0 => none
  | fuel + 1 =>
    match xs with
    | .blockEntry :: rest => do
      let (v, rest) ← optionalNode? .block itemEnds rest fuel
      let (vs, rest) ← blockItems? rest fuel
      return (v :: vs, rest)
    | .blockEnd :: rest => some ([], rest)
    | _ => none

def flatItems? (xs : List Lexeme) : Nat → Option (List Yaml × List Lexeme)
  | 0 => none
  | fuel + 1 =>
    match xs with
    | .blockEntry :: rest => do
      let (v, rest) ← optionalNode? .block (.blockEntry :: entryEnds) rest fuel
      let (vs, rest) ← flatItems? rest fuel
      return (v :: vs, rest)
    | _ => some ([], xs)

def blockEntries? (xs : List Lexeme) : Nat → Option (List (Yaml × Yaml) × List Lexeme)
  | 0 => none
  | fuel + 1 =>
    match xs with
    | .key :: rest => do
      let (k, rest) ← optionalNode? .entry entryEnds rest fuel
      let (v, rest) ← match rest with
        | .value :: rest => optionalNode? .entry entryEnds rest fuel
        | _ => some (nothing, rest)
      let (es, rest) ← blockEntries? rest fuel
      return ((k, v) :: es, rest)
    | .blockEnd :: rest => some ([], rest)
    | _ => none

def flowValue? (ends xs : List Lexeme) : Nat → Option (Yaml × List Lexeme)
  | 0 => none
  | fuel + 1 =>
    match xs with
    | .value :: rest => optionalNode? .flow ends rest fuel
    | _ => some (nothing, xs)

/-- The items of a sequence in brackets up to the closing one. An item with a key is a mapping of
its own; if the key is missing, the element in its place is passed over. -/
def flowItems? (first : Bool) (xs : List Lexeme) : Nat → Option (List Yaml × List Lexeme)
  | 0 => none
  | fuel + 1 =>
    match xs with
    | .closeSequence :: rest => some ([], rest)
    | _ => do
      let xs ← if first then some xs else if nextIn xs [.comma] then some (xs.drop 1) else none
      match xs with
      | .closeSequence :: rest => some ([], rest)
      | .key :: rest =>
        let (k, rest) ←
          if nextIn rest [.value, .comma, .closeSequence] then some (nothing, rest.drop 1)
          else node? .flow rest fuel
        let (v, rest) ← flowValue? [.comma, .closeSequence] rest fuel
        let (vs, rest) ← flowItems? false rest fuel
        return (.mapping .none [(k, v)] :: vs, rest)
      | _ =>
        let (v, rest) ← node? .flow xs fuel
        let (vs, rest) ← flowItems? false rest fuel
        return (v :: vs, rest)

def flowEntries? (first : Bool) (xs : List Lexeme) :
    Nat → Option (List (Yaml × Yaml) × List Lexeme)
  | 0 => none
  | fuel + 1 =>
    match xs with
    | .closeMapping :: rest => some ([], rest)
    | _ => do
      let xs ← if first then some xs else if nextIn xs [.comma] then some (xs.drop 1) else none
      match xs with
      | .closeMapping :: rest => some ([], rest)
      | .key :: rest =>
        let (k, rest) ← optionalNode? .flow [.value, .comma, .closeMapping] rest fuel
        let (v, rest) ← flowValue? [.comma, .closeMapping] rest fuel
        let (es, rest) ← flowEntries? false rest fuel
        return ((k, v) :: es, rest)
      | _ =>
        let (k, rest) ← node? .flow xs fuel
        let (es, rest) ← flowEntries? false rest fuel
        return ((k, nothing) :: es, rest)

end

def isOuter (x : Lexeme) : Bool :=
  x == .version || x == .handle || x == .documentStart || x == .documentEnd

/-- A document and the elements after it. Behind directives its start is marked, and only a document
whose start is marked can be empty. -/
def document? (xs : List Lexeme) : Option (Yaml × List Lexeme) :=
  let directives := xs.takeWhile fun x => x == .version || x == .handle
  let fuel := 3 * xs.length + 3
  match xs.drop directives.length with
  | .documentStart :: rest =>
    if 1 < directives.count .version then none
    else if rest.head?.all isOuter then some (nothing, rest)
    else node? .block rest fuel
  | _ => if directives = [] then node? .block xs fuel else none

def read? (text : String) : Option Yaml := do
  let xs ← lexemes? text
  if xs = [] then return nothing
  let (v, rest) ← document? xs
  if rest.all (· = .documentEnd) then return v else none

end RowSelect.Yaml
