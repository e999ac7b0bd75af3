import RowSelect.Json.Printer
import RowSelect.Json.Reader
import RowSelect.Proofs.NumberText

/-!
JSON values are read back from their texts, compact or with indents. A text is first taken apart into
the lexical elements of the value, which the reader then puts together again.
-/

set_option autoImplicit false

namespace RowSelect.Json

section Strings

/-- How a character may stand in a string, and what the reader takes it for. -/
inductive Escapes : Char → Piece → List Char → Prop where
  | plain {c : Char} (hquote : c ≠ '"') (hslash : c ≠ '\\') (hcontrol : ¬c.toNat < 0x20) :
      Escapes c (.char c) [c]
  | short {c e : Char} (he : escape? e = some c) : Escapes c (.char c) ['\\', e]
  | unit {c x y : Char} (hc : c.toNat < 0x20) (h : hexValue? ['0', '0', x, y] = some c.toNat)
      (hx : 0x20 ≤ x.toNat ∧ x ≠ '"' ∧ x ≠ '\\') (hy : 0x20 ≤ y.toNat ∧ y ≠ '"' ∧ y ≠ '\\') :
      Escapes c (.unit c.toNat) ['\\', 'u', '0', '0', x, y]

theorem hexValue?_digitChar :
    ∀ n < 0x20, hexValue? ['0', '0', Nat.digitChar (n / 16), Nat.digitChar (n % 16)] = some n := by
  decide

theorem digitChar_plain : ∀ n < 16, 0x20 ≤ (Nat.digitChar n).toNat ∧ Nat.digitChar n ≠ '"' ∧
    Nat.digitChar n ≠ '\\' := by
  decide

theorem exists_escapes (c : Char) : ∃ p, Escapes c p (writeChar c) := by
  unfold writeChar
  split_ifs with hquote hslash hb hf hn hr ht hcontrol
  · subst hquote
    exact ⟨_, .short rfl⟩
  · subst hslash
    exact ⟨_, .short rfl⟩
  · subst hb
    exact ⟨_, .short rfl⟩
  · subst hf
    exact ⟨_, .short rfl⟩
  · subst hn
    exact ⟨_, .short rfl⟩
  · subst hr
    exact ⟨_, .short rfl⟩
  · subst ht
    exact ⟨_, .short rfl⟩
  · exact ⟨_, .unit hcontrol (hexValue?_digitChar _ hcontrol) (digitChar_plain _ (by omega))
      (digitChar_plain _ (by omega))⟩
  · exact ⟨_, .plain hquote hslash hcontrol⟩

variable {c : Char} {p : Piece} {cs : List Char}

theorem stringBody_plain (h : 0x20 ≤ c.toNat ∧ c ≠ '"' ∧ c ≠ '\\') (rest : List Char) :
    stringBody (c :: rest) = (stringBody rest).map fun (body, tail) => (c :: body, tail) := by
  obtain ⟨hcontrol, hquote, hslash⟩ := h
  rw [stringBody]
  · simp [Nat.not_lt.2 hcontrol]
  · exact hquote
  · intro d ds hd
    exact absurd hd hslash

theorem Escapes.stringBody_append (h : Escapes c p cs) (rest : List Char) :
    stringBody (cs ++ rest) = (stringBody rest).map fun (body, tail) => (cs ++ body, tail) := by
  cases h with
  | plain hquote hslash hcontrol => exact stringBody_plain ⟨Nat.not_lt.1 hcontrol, hquote, hslash⟩ rest
  | short he => rfl
  | unit hc h hx hy =>
    have hzero : 0x20 ≤ '0'.toNat ∧ '0' ≠ '"' ∧ '0' ≠ '\\' := by decide
    have hescape : ∀ rest, stringBody ('\\' :: 'u' :: rest) =
        (stringBody rest).map fun (body, tail) => ('\\' :: 'u' :: body, tail) := fun _ => rfl
    simp only [List.cons_append, List.nil_append, hescape, stringBody_plain hzero,
      stringBody_plain hx, stringBody_plain hy, Option.map_map]
    rfl

theorem Escapes.pieces?_append (h : Escapes c p cs) (rest : List Char) :
    pieces? (cs ++ rest) = (pieces? rest).map (p :: ·) := by
  cases h with
  | plain hquote hslash hcontrol =>
    rw [List.singleton_append, pieces?]
    · cases pieces? rest <;> rfl
    · intro a b c d ds hu
      exact absurd hu hslash
    · intro d ds hd
      exact absurd hd hslash
  | @short e he =>
    have hu : e ≠ 'u' := by
      rintro rfl
      cases he
    rw [List.cons_append, List.singleton_append, pieces?]
    · cases pieces? rest <;> simp [he]
    · intro a b c d ds hd
      exact absurd hd hu
  | unit hc h hx hy =>
    simp only [List.cons_append, List.nil_append]
    rw [pieces?, h]
    cases pieces? rest <;> rfl

theorem spell?_unit {n : Nat} (hn : n < 0xD800) (ps : List Piece) :
    spell? (.unit n :: ps) = (spell? ps).map (.ofNat n :: ·) := by
  have hlone : ¬(0xD800 ≤ n ∧ n < 0xE000) := by omega
  have hsplit : (∃ low qs, ps = .unit low :: qs) ∨ ∀ low qs, ps ≠ .unit low :: qs := by
    cases ps with
    | nil => exact .inr (by simp)
    | cons q qs =>
      cases q with
      | char d => exact .inr (by simp)
      | unit low => exact .inl ⟨low, qs, rfl⟩
  rcases hsplit with ⟨low, qs, rfl⟩ | hother
  · rw [spell?, if_neg (by omega), if_neg (by omega)]
    cases spell? (.unit low :: qs) <;> rfl
  · rw [spell?]
    · rw [if_neg hlone]
      cases spell? ps <;> rfl
    · exact hother

theorem Escapes.spell?_cons (h : Escapes c p cs) (ps : List Piece) :
    spell? (p :: ps) = (spell? ps).map (c :: ·) := by
  cases h with
  | plain hquote hslash hcontrol =>
    rw [spell?]
    cases spell? ps <;> rfl
  | short he =>
    rw [spell?]
    cases spell? ps <;> rfl
  | unit hc h hx hy =>
    have hchar : Char.ofNat c.toNat = c := Char.ofNat_toNat c
    rw [spell?_unit (show c.toNat < 0xD800 by omega), hchar]

theorem stringBody_writeString (s : List Char) (rest : List Char) :
    stringBody (s.flatMap writeChar ++ '"' :: rest) = some (s.flatMap writeChar, rest) := by
  induction s with
  | nil => rfl
  | cons c s ih =>
    obtain ⟨p, hp⟩ := exists_escapes c
    rw [List.flatMap_cons, List.append_assoc, hp.stringBody_append, ih]
    rfl

theorem spell?_writeString (s : List Char) :
    (pieces? (s.flatMap writeChar)).bind spell? = some s := by
  have hpieces : ∃ ps, pieces? (s.flatMap writeChar) = some ps ∧ spell? ps = some s := by
    induction s with
    | nil => exact ⟨[], rfl, rfl⟩
    | cons c s ih =>
      obtain ⟨p, hp⟩ := exists_escapes c
      obtain ⟨ps, hpieces, hspell⟩ := ih
      refine ⟨p :: ps, ?_, ?_⟩
      · rw [List.flatMap_cons, hp.pieces?_append, hpieces]
        rfl
      · rw [hp.spell?_cons, hspell]
        rfl
  obtain ⟨ps, hpieces, hspell⟩ := hpieces
  rw [hpieces]
  exact hspell

end Strings

section Lexing

def Ends (cs : List Char) : Prop := ∀ c ∈ cs.head?, isNumberChar c = false ∧ c.isAlpha = false

/-- The text is taken apart into these elements, and what stands behind it on its own. -/
def Lexes (number? : Numeral → Option Number) (xs : List Lexeme) (cs : List Char) : Prop :=
  ∀ rest, Ends rest →
    lexemes? number? (cs ++ rest) = (lexemes? number? rest).map (xs ++ ·)

def GetsBack (number? : Numeral → Option Number) (n : Number) : Prop :=
  ∃ numeral, numeral? n.text = some numeral ∧ number? numeral = some n

variable {number? : Numeral → Option Number} {xs ys : List Lexeme} {c : Char} {cs ds : List Char}

theorem Lexes.nil : Lexes number? [] [] := by
  intro rest _
  rw [List.nil_append]
  cases lexemes? number? rest <;> rfl

theorem Lexes.append (h : Lexes number? xs cs) (hds : Lexes number? ys ds) (hne : ds ≠ [])
    (hends : Ends ds) : Lexes number? (xs ++ ys) (cs ++ ds) := by
  intro rest hrest
  obtain ⟨d, ds, rfl⟩ := List.exists_cons_of_ne_nil hne
  have hnext : Ends (d :: ds ++ rest) := hends
  rw [List.append_assoc, h _ hnext, hds rest hrest, Option.map_map]
  simp [Function.comp_def]

theorem Lexes.space (hc : isSpace c = true) (h : Lexes number? xs cs) :
    Lexes number? xs (c :: cs) := by
  intro rest hrest
  rw [List.cons_append, lexemes?, if_pos hc, h rest hrest]

theorem Lexes.gap {gap : List Char} (hgap : ∀ c ∈ gap, isSpace c = true)
    (h : Lexes number? xs cs) : Lexes number? xs (gap ++ cs) := by
  induction gap with
  | nil => exact h
  | cons c gap ih =>
    obtain ⟨hc, hgap⟩ := List.forall_mem_cons.1 hgap
    exact .space hc (ih hgap)

theorem isSpace_of_mark? {m : Lexeme} (h : mark? c = some m) : isSpace c = false := by
  unfold mark? at h
  split_ifs at h <;> subst c <;> rfl

theorem Lexes.mark {m : Lexeme} (hm : mark? c = some m) (h : Lexes number? xs cs) :
    Lexes number? (m :: xs) (c :: cs) := by
  intro rest hrest
  rw [List.cons_append, lexemes?, if_neg (by simp [isSpace_of_mark? hm]), hm, h rest hrest]
  cases lexemes? number? rest <;> rfl

theorem lexemes?_string {s : String} {rest : List Char} (hbody : stringBody cs = some (ds, rest))
    (hs : (pieces? ds).bind spell? = some s.toList) :
    lexemes? number? ('"' :: cs) = (lexemes? number? rest).map (.scalar (.string s) :: ·) := by
  have hmark : mark? '"' = none := rfl
  rw [lexemes?, if_neg (by decide)]
  simp only [hmark, if_true]
  split
  next hnone =>
    rw [hbody] at hnone
    cases hnone
  next hsome =>
    rw [hbody] at hsome
    cases hsome
    rw [hs]
    cases lexemes? number? rest <;> simp

theorem Lexes.string (s : String) (h : Lexes number? xs cs) :
    Lexes number? (.scalar (.string s) :: xs) (writeString s ++ cs) := by
  intro rest hrest
  have htext : writeString s ++ cs ++ rest =
      '"' :: (s.toList.flatMap writeChar ++ '"' :: (cs ++ rest)) := by
    simp [writeString]
  rw [htext, lexemes?_string (stringBody_writeString _ _) (spell?_writeString _), h rest hrest,
    Option.map_map]
  rfl

theorem lexemes?_number (hc : isNumberChar c = true) :
    lexemes? number? (c :: cs) =
      ((numeral? (c :: cs.takeWhile isNumberChar)).bind number?).bind fun n =>
        (lexemes? number? (cs.dropWhile isNumberChar)).map (.scalar (.number n) :: ·) := by
  have hne : ∀ d, isNumberChar d = false → c ≠ d := by
    rintro d hd rfl
    rw [hc] at hd
    cases hd
  have hspace : isSpace c = false := by
    simp [isSpace, hne ' ' rfl, hne '\t' rfl, hne '\n' rfl, hne '\r' rfl]
  have hmark : mark? c = none := by
    simp [mark?, hne '[' rfl, hne ']' rfl, hne '\x7b' rfl, hne '\x7d' rfl, hne ',' rfl,
      hne ':' rfl]
  rw [lexemes?, if_neg (by simp [hspace])]
  simp only [hmark, if_neg (hne '"' rfl), hc, if_true]
  cases (numeral? (c :: cs.takeWhile isNumberChar)).bind number? with
  | none => rfl
  | some n => cases lexemes? number? (cs.dropWhile isNumberChar) <;> rfl

theorem Lexes.number {n : Number} (h : GetsBack number? n) :
    Lexes number? [.scalar (.number n)] n.text := by
  intro rest hrest
  have hchars := n.isNumberChar_text
  obtain ⟨numeral, hnumeral, hn⟩ := h
  cases htext : n.text with
  | nil =>
    rw [htext] at hnumeral
    cases hnumeral
  | cons c cs =>
    rw [htext] at hchars hnumeral
    obtain ⟨hc, hcs⟩ := List.forall_mem_cons.1 hchars
    obtain ⟨htake, hdrop⟩ := cut_append cs fun c hc => (hrest c hc).1
    rw [List.cons_append, lexemes?_number hc, htake, hdrop, List.takeWhile_eq_self_iff.2 hcs,
      List.dropWhile_eq_nil_iff.2 hcs, hnumeral, Option.bind_some, hn]
    rfl

theorem Lexes.name {v : Json}
    (hc : isSpace c = false ∧ mark? c = none ∧ c ≠ '"' ∧ isNumberChar c = false)
    (hcs : ∀ c ∈ cs, c.isAlpha = true) (h : literal? (c :: cs) = some v) :
    Lexes number? [.scalar v] (c :: cs) := by
  intro rest hrest
  obtain ⟨hspace, hmark, hquote, hnumber⟩ := hc
  obtain ⟨htake, hdrop⟩ := cut_append cs fun c hc => (hrest c hc).2
  rw [List.cons_append, lexemes?, if_neg (by simp [hspace])]
  simp only [hmark, if_neg hquote, hnumber, Bool.false_eq_true, if_false, htake, hdrop,
    List.takeWhile_eq_self_iff.2 hcs, List.dropWhile_eq_nil_iff.2 hcs, h, List.nil_append]
  cases lexemes? number? rest <;> rfl

end Lexing

mutual

def lexemes : Json → List Lexeme
  | .array items => .openArray :: itemLexemes items ++ [.closeArray]
  | .object members => .openObject :: memberLexemes members ++ [.closeObject]
  | v => [.scalar v]

def itemLexemes : List Json → List Lexeme
  | [] => []
  | [v] => lexemes v
  | v :: rest => lexemes v ++ .comma :: itemLexemes rest

def memberLexemes : List (String × Json) → List Lexeme
  | [] => []
  | [(name, v)] => .scalar (.string name) :: .colon :: lexemes v
  | (name, v) :: rest =>
    .scalar (.string name) :: .colon :: lexemes v ++ .comma :: memberLexemes rest

end

mutual

def numbers : Json → List Number
  | .number n => [n]
  | .array items => itemNumbers items
  | .object members => memberNumbers members
  | _ => []

def itemNumbers : List Json → List Number
  | [] => []
  | v :: rest => numbers v ++ itemNumbers rest

def memberNumbers : List (String × Json) → List Number
  | [] => []
  | (_, v) :: rest => numbers v ++ memberNumbers rest

end

mutual

def depth : Json → Nat
  | .array items => itemDepth items + 1
  | .object members => memberDepth members + 1
  | _ => 0

def itemDepth : List Json → Nat
  | [] => 0
  | v :: rest => max (depth v) (itemDepth rest)

def memberDepth : List (String × Json) → Nat
  | [] => 0
  | (_, v) :: rest => max (depth v) (memberDepth rest)

end

section Writing

variable {number? : Numeral → Option Number}

theorem lexes_writeScalar {v : Json} (hv : v.lexemes = [.scalar v])
    (h : ∀ n ∈ v.numbers, GetsBack number? n) : Lexes number? v.lexemes (writeScalar v) := by
  rw [hv]
  cases v with
  | null => exact .name (by decide) (List.all_eq_true.1 rfl) rfl
  | bool b =>
    cases b with
    | true => exact .name (by decide) (List.all_eq_true.1 rfl) rfl
    | false => exact .name (by decide) (List.all_eq_true.1 rfl) rfl
  | number n => exact .number (h n (List.mem_singleton_self n))
  | string s =>
    have htext : Lexes number? _ (writeString s ++ []) := .string s .nil
    rwa [List.append_nil] at htext
  | array items => simp [lexemes] at hv
  | object members => simp [lexemes] at hv

theorem ends_of_mark {c : Char} {cs : List Char} (h : isNumberChar c = false ∧ c.isAlpha = false) :
    Ends (c :: cs) := by
  intro d hd
  rwa [← Option.some.inj hd]

mutual

theorem lexes_writeCompact (v : Json) (h : ∀ n ∈ v.numbers, GetsBack number? n) :
    Lexes number? v.lexemes (writeCompact v) :=
  match v with
  | .null => lexes_writeScalar rfl h
  | .bool _ => lexes_writeScalar rfl h
  | .number _ => lexes_writeScalar rfl h
  | .string _ => lexes_writeScalar rfl h
  | .array items =>
    .mark rfl ((lexes_writeItems items h).append (.mark rfl .nil) (List.cons_ne_nil _ _)
      (ends_of_mark (by decide)))
  | .object members =>
    .mark rfl ((lexes_writeMembers members h).append (.mark rfl .nil) (List.cons_ne_nil _ _)
      (ends_of_mark (by decide)))

theorem lexes_writeItems (items : List Json) (h : ∀ n ∈ itemNumbers items, GetsBack number? n) :
    Lexes number? (itemLexemes items) (writeItems items) :=
  match items with
  | [] => .nil
  | [v] => lexes_writeCompact v fun n hn => h n (List.mem_append_left _ hn)
  | v :: w :: rest =>
    (lexes_writeCompact v fun n hn => h n (List.mem_append_left _ hn)).append
      (.mark rfl (lexes_writeItems (w :: rest) fun n hn => h n (List.mem_append_right _ hn)))
      (List.cons_ne_nil _ _) (ends_of_mark (by decide))

theorem lexes_writeMembers (members : List (String × Json))
    (h : ∀ n ∈ memberNumbers members, GetsBack number? n) :
    Lexes number? (memberLexemes members) (writeMembers members) :=
  match members with
  | [] => .nil
  | [(name, v)] =>
    .string name (.mark rfl (lexes_writeCompact v fun n hn => h n (List.mem_append_left _ hn)))
  | (name, v) :: m :: rest => by
    have hv := lexes_writeCompact v fun n hn => h n (List.mem_append_left _ hn)
    have hrest := lexes_writeMembers (m :: rest) fun n hn => h n (List.mem_append_right _ hn)
    have hall := Lexes.string name (.mark (c := ':') rfl (hv.append (.mark (c := ',') rfl hrest)
      (List.cons_ne_nil _ _) (ends_of_mark (by decide))))
    rw [writeMembers, List.append_assoc]
    · exact hall
    · exact List.cons_ne_nil m rest

end

theorem isSpace_newline (level : Nat) : ∀ c ∈ newline level, isSpace c = true := by
  intro c hc
  rcases List.mem_cons.1 hc with rfl | hc
  · rfl
  · rw [List.eq_of_mem_replicate hc]
    rfl

theorem Lexes.close {xs : List Lexeme} {m : Lexeme} {cs : List Char} {c : Char} {level : Nat}
    (h : Lexes number? xs cs) (hm : mark? c = some m) :
    Lexes number? (xs ++ [m]) (cs ++ newline level ++ [c]) := by
  rw [List.append_assoc]
  exact h.append (.gap (isSpace_newline level) (.mark hm .nil)) (List.cons_ne_nil _ _)
    (ends_of_mark (by decide))

mutual

theorem lexes_writePretty (level : Nat) (v : Json) (h : ∀ n ∈ v.numbers, GetsBack number? n) :
    Lexes number? v.lexemes (writePretty level v) :=
  match v with
  | .null => lexes_writeScalar rfl h
  | .bool _ => lexes_writeScalar rfl h
  | .number _ => lexes_writeScalar rfl h
  | .string _ => lexes_writeScalar rfl h
  | .array [] => .mark rfl (.mark rfl .nil)
  | .object [] => .mark rfl (.mark rfl .nil)
  | .array (w :: items) =>
    .mark rfl ((lexes_writeItemLines (level + 1) (w :: items) h).close rfl)
  | .object (m :: members) =>
    .mark rfl ((lexes_writeMemberLines (level + 1) (m :: members) h).close rfl)

theorem lexes_writeItemLines (level : Nat) (items : List Json)
    (h : ∀ n ∈ itemNumbers items, GetsBack number? n) :
    Lexes number? (itemLexemes items) (writeItemLines level items) :=
  match items with
  | [] => .nil
  | [v] => .gap (isSpace_newline level)
      (lexes_writePretty level v fun n hn => h n (List.mem_append_left _ hn))
  | v :: w :: rest => by
    have hv := lexes_writePretty level v fun n hn => h n (List.mem_append_left _ hn)
    have hrest := lexes_writeItemLines level (w :: rest) fun n hn =>
      h n (List.mem_append_right _ hn)
    rw [writeItemLines, List.append_assoc]
    · exact .gap (isSpace_newline level) (hv.append (.mark rfl hrest) (List.cons_ne_nil _ _)
        (ends_of_mark (by decide)))
    · exact List.cons_ne_nil w rest

theorem lexes_writeMemberLines (level : Nat) (members : List (String × Json))
    (h : ∀ n ∈ memberNumbers members, GetsBack number? n) :
    Lexes number? (memberLexemes members) (writeMemberLines level members) :=
  match members with
  | [] => .nil
  | [(name, v)] => by
    have hv := lexes_writePretty level v fun n hn => h n (List.mem_append_left _ hn)
    rw [writeMemberLines, List.append_assoc]
    exact .gap (isSpace_newline level) (.string name (.mark rfl (.space rfl hv)))
  | (name, v) :: m :: rest => by
    have hv := lexes_writePretty level v fun n hn => h n (List.mem_append_left _ hn)
    have hrest := lexes_writeMemberLines level (m :: rest) fun n hn =>
      h n (List.mem_append_right _ hn)
    rw [writeMemberLines, List.append_assoc, List.append_assoc]
    · exact .gap (isSpace_newline level) (.string name (.mark (c := ':') rfl (.space (c := ' ') rfl
        (hv.append (.mark (c := ',') rfl hrest) (List.cons_ne_nil _ _)
          (ends_of_mark (by decide))))))
    · exact List.cons_ne_nil m rest

end

end Writing

section Reading

theorem foldlM_append_eq {xs ys : List Lexeme} {r s : Reading}
    (h : xs.foldlM Reading.step r = some s) :
    (xs ++ ys).foldlM Reading.step r = ys.foldlM Reading.step s := by
  rw [List.foldlM_append, h]
  rfl

theorem step_open {frame : Frame} {turn turn' : Turn} {frames : List Frame} {x : Lexeme}
    {xs : List Lexeme} {r : Reading} (hlength : frames.length < maxDepth)
    (hstep : Reading.step ⟨frames, turn, none⟩ x = Reading.push frame turn' frames)
    (hxs : xs.foldlM Reading.step ⟨frame :: frames, turn', none⟩ = some r) (close : Lexeme) :
    (x :: xs ++ [close]).foldlM Reading.step ⟨frames, turn, none⟩ = r.step close := by
  rw [Reading.push, if_pos hlength] at hstep
  rw [List.cons_append, List.foldlM_cons, hstep, Option.bind_eq_bind, Option.bind_some,
    foldlM_append_eq hxs]
  simp

theorem open_steps {turn : Turn} (hturn : turn = .value ∨ turn = .item) (frames : List Frame) :
    Reading.step ⟨frames, turn, none⟩ .openArray = Reading.push (.array []) .item frames ∧
    Reading.step ⟨frames, turn, none⟩ .openObject = Reading.push (.object [] none) .member frames := by
  rcases hturn with rfl | rfl <;> exact ⟨rfl, rfl⟩

mutual

/-- Where a value may come, the reader takes its elements for the value. -/
theorem foldlM_lexemes (v : Json) {turn : Turn} (hturn : turn = .value ∨ turn = .item)
    (frames : List Frame) (h : v.depth + frames.length ≤ maxDepth) :
    v.lexemes.foldlM Reading.step ⟨frames, turn, none⟩ = Reading.put v frames :=
  match v with
  | .null => by rcases hturn with rfl | rfl <;> simp [lexemes, Reading.step]
  | .bool _ => by rcases hturn with rfl | rfl <;> simp [lexemes, Reading.step]
  | .number _ => by rcases hturn with rfl | rfl <;> simp [lexemes, Reading.step]
  | .string _ => by rcases hturn with rfl | rfl <;> simp [lexemes, Reading.step]
  | .array [] => by
    rw [depth] at h
    exact step_open (by omega) (open_steps hturn frames).1 List.foldlM_nil .closeArray
  | .object [] => by
    rw [depth] at h
    exact step_open (by omega) (open_steps hturn frames).2 List.foldlM_nil .closeObject
  | .array (w :: items) => by
    rw [depth] at h
    have hitems := foldlM_itemLexemes (w :: items) (List.cons_ne_nil _ _) (.inr rfl) []
      frames (by omega)
    rw [lexemes, step_open (by omega) (open_steps hturn frames).1 hitems]
    simp [Reading.step]
  | .object (m :: members) => by
    rw [depth] at h
    have hmembers := foldlM_memberLexemes (m :: members) (List.cons_ne_nil _ _) (.inr rfl) []
      frames (by omega)
    rw [lexemes, step_open (by omega) (open_steps hturn frames).2 hmembers]
    simp [Reading.step]

theorem foldlM_itemLexemes (items : List Json) (hne : items ≠ []) {turn : Turn}
    (hturn : turn = .value ∨ turn = .item) (done : List Json) (frames : List Frame)
    (h : itemDepth items + 1 + frames.length ≤ maxDepth) :
    (itemLexemes items).foldlM Reading.step ⟨.array done :: frames, turn, none⟩ =
      some ⟨.array (items.reverse ++ done) :: frames, .more, none⟩ :=
  match items with
  | [] => absurd rfl hne
  | [v] => by
    rw [itemDepth] at h
    exact foldlM_lexemes v hturn (.array done :: frames) (by rw [List.length_cons]; omega)
  | v :: w :: rest => by
    rw [itemDepth] at h
    have hv := foldlM_lexemes v hturn (.array done :: frames)
      (by rw [List.length_cons]; omega)
    have hrest := foldlM_itemLexemes (w :: rest) (List.cons_ne_nil _ _) (.inl rfl) (v :: done)
      frames (by omega)
    rw [itemLexemes, foldlM_append_eq hv]
    · rw [List.reverse_cons, List.append_assoc]
      exact hrest
    · exact List.cons_ne_nil w rest

theorem foldlM_memberLexemes (members : List (String × Json)) (hne : members ≠ []) {turn : Turn}
    (hturn : turn = .key ∨ turn = .member) (done : List (String × Json)) (frames : List Frame)
    (h : memberDepth members + 1 + frames.length ≤ maxDepth) :
    (memberLexemes members).foldlM Reading.step ⟨.object done none :: frames, turn, none⟩ =
      some ⟨.object (members.reverse ++ done) none :: frames, .more, none⟩ :=
  match members with
  | [] => absurd rfl hne
  | [(name, v)] => by
    rw [memberDepth] at h
    have hv := foldlM_lexemes v (.inl rfl) (.object done (some name) :: frames)
      (by rw [List.length_cons]; omega)
    rcases hturn with rfl | rfl <;> exact hv
  | (name, v) :: m :: rest => by
    rw [memberDepth] at h
    have hv := foldlM_lexemes v (.inl rfl) (.object done (some name) :: frames)
      (by rw [List.length_cons]; omega)
    have hrest := foldlM_memberLexemes (m :: rest) (List.cons_ne_nil _ _) (.inl rfl)
      ((name, v) :: done) frames (by omega)
    have hname : (Lexeme.scalar (.string name) :: .colon :: v.lexemes).foldlM Reading.step
        ⟨.object done none :: frames, turn, none⟩ =
          some ⟨.object ((name, v) :: done) none :: frames, .more, none⟩ := by
      rcases hturn with rfl | rfl <;> exact hv
    rw [memberLexemes, foldlM_append_eq hname]
    · rw [List.reverse_cons, List.append_assoc]
      exact hrest
    · exact List.cons_ne_nil m rest

end

variable {number? : Numeral → Option Number} {v : Json}

theorem readDocumentBy?_of_lexes {cs : List Char} (h : Lexes number? v.lexemes cs)
    (hdepth : v.depth ≤ maxDepth) : readDocumentBy? number? (.ofList cs) = some v := by
  have hlexemes := h [] (by simp [Ends])
  have hread := foldlM_lexemes v (.inl rfl) [] hdepth
  rw [List.append_nil, lexemes?, Option.map_some, List.append_nil] at hlexemes
  rw [readDocumentBy?, String.toList_ofList, hlexemes, Option.bind_eq_bind, Option.bind_some, hread]
  rfl

/-- A reader of numerals that gets the numbers of a value back gets back the value, from either
text. -/
theorem readDocumentBy?_text (h : ∀ n ∈ v.numbers, GetsBack number? n) (hdepth : v.depth ≤ maxDepth) :
    readDocumentBy? number? v.compact = some v ∧ readDocumentBy? number? v.pretty = some v :=
  ⟨readDocumentBy?_of_lexes (lexes_writeCompact v h) hdepth,
    readDocumentBy?_of_lexes (lexes_writePretty 0 v h) hdepth⟩

/-- A document's integers are read back. Its other numbers are read with less care and may not be. -/
theorem readDocument?_text (h : ∀ n ∈ v.numbers, ∃ i hi, n = .integer i hi)
    (hdepth : v.depth ≤ maxDepth) :
    readDocument? v.compact = some v ∧ readDocument? v.pretty = some v := by
  refine readDocumentBy?_text (fun n hn => ?_) hdepth
  obtain ⟨i, hi, rfl⟩ := h n hn
  exact Number.exists_numeral_integer Numeral.scaled? hi

theorem readDocumentBy?_ofNumeral? (hdepth : v.depth ≤ maxDepth) :
    readDocumentBy? Number.ofNumeral? v.compact = some v ∧
    readDocumentBy? Number.ofNumeral? v.pretty = some v :=
  readDocumentBy?_text (fun n _ => n.exists_numeral_text) hdepth

end Reading

end RowSelect.Json
