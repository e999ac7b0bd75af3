import RowSelect.Proofs.Characters
import RowSelect.Proofs.Cutting

/-!
Which tokens a text splits into, said without byte offsets and with the text that is left, so that
the pieces of a text can be put together.
-/

set_option autoImplicit false

namespace RowSelect.Query

open RowSelect.Text

/-- The text splits into the tokens and what is left of it. A token is read with all that follows it
in view. -/
inductive Lexes : List Char → List Token → List Char → Prop where
  | done (cs : List Char) : Lexes cs [] cs
  | blank {c : Char} {cs rest : List Char} {ts : List Token} (hc : isBlank c = true)
      (h : Lexes cs ts rest) : Lexes (c :: cs) ts rest
  | token {c : Char} {cs rest : List Char} {x : Lexed} {ts : List Token} (hc : isBlank c = false)
      (hx : lex? c cs = some x) (h : Lexes x.rest ts rest) : Lexes (c :: cs) (x.token :: ts) rest

namespace Lexes

theorem append {cs mid rest : List Char} {ts us : List Token} (h : Lexes cs ts mid)
    (h' : Lexes mid us rest) : Lexes cs (ts ++ us) rest := by
  induction h with
  | done => exact h'
  | blank hc _ ih => exact .blank hc (ih h')
  | token hc hx _ ih => exact .token hc hx (ih h')

theorem blanks {bs rest : List Char} (h : ∀ c ∈ bs, isBlank c = true) :
    Lexes (bs ++ rest) [] rest := by
  induction bs with
  | nil => exact .done rest
  | cons b bs ih =>
    exact .blank (h b (List.mem_cons_self ..)) (ih fun c hc => h c (List.mem_cons_of_mem _ hc))

end Lexes

theorem lexes_of_tokenizeFrom {offset : Nat} {cs : List Char} {ls : List Located}
    (h : tokenizeFrom offset cs = .ok ls) : Lexes cs (ls.map Located.token) [] := by
  fun_induction tokenizeFrom offset cs generalizing ls with
  | case1 =>
    cases h
    exact .done []
  | case2 offset c cs hc ih => exact .blank hc (ih h)
  | case3 => cases h
  | case4 offset c cs hc x hx later hlater ih =>
    cases h
    exact .token (by simpa using hc) hx (ih hlater)
  | case5 => cases h

theorem tokenizeFrom_token {c : Char} {cs : List Char} {x : Lexed} (hc : isBlank c = false)
    (hx : lex? c cs = some x) (offset : Nat) :
    tokenizeFrom offset (c :: cs) =
      (tokenizeFrom (offset + utf8Length x.spelling) x.rest).map (⟨offset, x.token⟩ :: ·) := by
  rw [tokenizeFrom, if_neg (by simp [hc])]
  split
  · next hnone => simp [hx] at hnone
  · next y hy =>
    rw [hx] at hy
    cases hy
    cases tokenizeFrom (offset + utf8Length x.spelling) x.rest <;> rfl

theorem tokenizeFrom_of_lexes {cs rest : List Char} {ts : List Token} (h : Lexes cs ts rest)
    (hrest : rest = []) (offset : Nat) :
    ∃ ls, tokenizeFrom offset cs = .ok ls ∧ ls.map Located.token = ts := by
  induction h generalizing offset with
  | done cs =>
    subst hrest
    exact ⟨[], by simp [tokenizeFrom], rfl⟩
  | @blank c cs rest ts hc _ ih =>
    obtain ⟨ls, hls, hts⟩ := ih hrest (offset + c.utf8Size)
    exact ⟨ls, by rw [tokenizeFrom, if_pos hc, hls], hts⟩
  | @token c cs rest x ts hc hx _ ih =>
    obtain ⟨ls, hls, hts⟩ := ih hrest (offset + utf8Length x.spelling)
    exact ⟨⟨offset, x.token⟩ :: ls, by rw [tokenizeFrom_token hc hx, hls]; rfl, by simp [hts]⟩

theorem split_of_tokenizeFrom {offset : Nat} {cs : List Char} {pre post : List Located}
    {l : Located} (h : tokenizeFrom offset cs = .ok (pre ++ l :: post)) :
    ∃ before c more x, cs = before ++ c :: more ∧ l.offset = offset + utf8Length before ∧
      lex? c more = some x ∧ x.token = l.token ∧ Lexes x.rest (post.map Located.token) [] := by
  fun_induction tokenizeFrom offset cs generalizing pre with
  | case1 => simp at h
  | case2 offset c cs hc ih =>
    obtain ⟨before, d, more, x, rfl, hoffset, hx⟩ := ih h
    exact ⟨c :: before, d, more, x, rfl, by simp [hoffset, utf8Length, Nat.add_assoc], hx⟩
  | case3 => cases h
  | case4 offset c cs hc x hx later hlater ih =>
    have hlist : ⟨offset, x.token⟩ :: later = pre ++ l :: post := Except.ok.inj h
    cases pre with
    | nil =>
      cases hlist
      exact ⟨[], c, cs, x, rfl, rfl, hx, rfl, lexes_of_tokenizeFrom hlater⟩
    | cons p pre =>
      obtain ⟨-, hpre⟩ := List.cons.inj hlist
      obtain ⟨before, d, more, y, hrest, hoffset, hy⟩ := ih (hpre ▸ hlater)
      refine ⟨x.spelling ++ before, d, more, y, ?_, ?_, hy⟩
      · rw [List.append_assoc, ← hrest, lex?_append hx]
      · rw [hoffset, utf8Length_append, Nat.add_assoc]
  | case5 => cases h

theorem lexLiteral?_eq_some {quote : Char} {body rest : List Char} (h : quote ∉ body) :
    lexLiteral? quote (body ++ quote :: rest) =
      some ⟨.literal (.ofList body), quote :: body ++ [quote], rest⟩ := by
  simp only [lexLiteral?, takeWhile_bne_append h, dropWhile_bne_append h]

theorem lexLiteral?_eq_some_iff {quote : Char} {cs : List Char} {x : Lexed} :
    lexLiteral? quote cs = some x ↔ ∃ body rest, cs = body ++ quote :: rest ∧ quote ∉ body ∧
      x = ⟨.literal (.ofList body), quote :: body ++ [quote], rest⟩ := by
  constructor
  · intro h
    unfold lexLiteral? at h
    cases hdrop : cs.dropWhile (· != quote) with
    | nil => simp [hdrop] at h
    | cons q rest =>
      obtain ⟨hcut, hbody⟩ := cut_of_dropWhile_bne hdrop
      rw [hdrop] at h
      cases h
      exact ⟨_, rest, hcut, hbody, rfl⟩
  · intro h
    obtain ⟨body, rest, rfl, hbody, rfl⟩ := h
    exact lexLiteral?_eq_some hbody

/-- The token that a character starts, by the kind of the character. -/
inductive Starts : Char → List Char → Lexed → Prop where
  | comma (cs : List Char) : Starts ',' cs ⟨.comma, [','], cs⟩
  | semicolon (cs : List Char) : Starts ';' cs ⟨.semicolon, [';'], cs⟩
  | comparison {c : Char} (cs : List Char) (hc : c = '=' ∨ c = '<' ∨ c = '>') :
      Starts c cs (lexComparison c cs)
  | literal {quote : Char} {body : List Char} (rest : List Char) (hquote : isQuote quote = true)
      (hbody : quote ∉ body) :
      Starts quote (body ++ quote :: rest) ⟨.literal (.ofList body), quote :: body ++ [quote], rest⟩
  | number {c : Char} (cs : List Char) (hc : c.isDigit = true) :
      Starts c cs ⟨.number (.ofList (c :: (splitNumber cs).1)), c :: (splitNumber cs).1,
        (splitNumber cs).2⟩
  | word {c : Char} (cs : List Char) (hc : isWordStart c = true) :
      Starts c cs ⟨.word (.ofList (c :: cs.takeWhile isWordChar)), c :: cs.takeWhile isWordChar,
        cs.dropWhile isWordChar⟩
  | other {c : Char} (cs : List Char) (hquote : isQuote c = false) (hdigit : c.isDigit = false)
      (hword : isWordStart c = false) : Starts c cs ⟨.other c, [c], cs⟩

theorem starts_of_lex? {c : Char} {cs : List Char} {x : Lexed} (h : lex? c cs = some x) :
    Starts c cs x := by
  unfold lex? at h
  split at h
  · next hc =>
    subst hc
    cases h
    exact .comma cs
  split at h
  · next hc =>
    subst hc
    cases h
    exact .semicolon cs
  split at h
  · next hc =>
    cases h
    exact .comparison cs hc
  split at h
  · next hquote =>
    obtain ⟨body, rest, rfl, hbody, rfl⟩ := lexLiteral?_eq_some_iff.1 h
    exact .literal rest hquote hbody
  split at h
  · next hdigit =>
    cases h
    exact .number cs hdigit
  split at h
  · next hword =>
    cases h
    exact .word cs hword
  · cases h
    exact .other cs (by simp_all) (by simp_all) (by simp_all)

theorem lexComparison_token (c : Char) (cs : List Char) :
    ∃ op, (lexComparison c cs).token = .operator op := by
  unfold lexComparison
  split <;> exact ⟨_, rfl⟩

theorem lexComparison_alone {cs : List Char} (h : cs.head? ≠ some '=') :
    lexComparison '<' cs = ⟨.operator .lt, ['<'], cs⟩ ∧
      lexComparison '>' cs = ⟨.operator .gt, ['>'], cs⟩ := by
  cases cs with
  | nil => exact ⟨rfl, rfl⟩
  | cons c cs =>
    have hc : c ≠ '=' := by simpa using h
    simp [lexComparison, hc]

theorem lex?_eq_word {c : Char} {cs : List Char} {x : Lexed} {w : String}
    (h : lex? c cs = some x) (hw : x.token = .word w) :
    isWordStart c = true ∧ x.spelling = w.toList ∧ (∀ d ∈ w.toList, isWordChar d = true) ∧
      w.toList = c :: cs.takeWhile isWordChar ∧ x.rest = cs.dropWhile isWordChar := by
  cases starts_of_lex? h with
  | word cs hc =>
    cases hw
    refine ⟨hc, by simp, ?_, by simp, rfl⟩
    rw [String.toList_ofList]
    intro d hd
    rcases List.mem_cons.1 hd with rfl | hd
    · exact isWordChar_of_isWordStart hc
    · exact List.mem_takeWhile_imp hd
  | comparison cs hc =>
    obtain ⟨op, hop⟩ := lexComparison_token c cs
    rw [hop] at hw
    cases hw
  | _ => cases hw

theorem Lexes.word_split {cs rest : List Char} {w : String} {ts : List Token}
    (h : Lexes cs (.word w :: ts) rest) :
    ∃ bs more, cs = bs ++ (w.toList ++ more) ∧ (∀ c ∈ bs, isBlank c = true) ∧
      ∀ c ∈ w.toList, isWordChar c = true := by
  generalize hus : Token.word w :: ts = us at h
  induction h with
  | done => cases hus
  | @blank c _ _ _ hc _ ih =>
    obtain ⟨bs, more, rfl, hbs, hchars⟩ := ih hus
    refine ⟨c :: bs, more, rfl, ?_, hchars⟩
    simpa [hc] using hbs
  | @token c cs _ x _ _ hx _ _ =>
    obtain ⟨-, hspelling, hchars, -⟩ := lex?_eq_word hx (List.cons.inj hus).1.symm
    refine ⟨[], x.rest, ?_, by simp, hchars⟩
    rw [List.nil_append, ← hspelling, lex?_append hx]

theorem Lexes.word_of_mem {cs rest : List Char} {ts : List Token} {w : String}
    (h : Lexes cs ts rest) (hw : .word w ∈ ts) :
    (∃ c ∈ w.toList.head?, isWordStart c = true) ∧ ∀ c ∈ w.toList, isWordChar c = true := by
  induction h with
  | done => cases hw
  | blank _ _ ih => exact ih hw
  | @token c cs _ x ts _ hx _ ih =>
    rcases List.mem_cons.1 hw with hw | hw
    · obtain ⟨hstart, -, hchars, hlist, -⟩ := lex?_eq_word hx hw.symm
      exact ⟨⟨c, by simp [hlist], hstart⟩, hchars⟩
    · exact ih hw

theorem lex?_of_isWordStart {c : Char} (cs : List Char) (h : isWordStart c = true) :
    lex? c cs = some ⟨.word (.ofList (c :: cs.takeWhile isWordChar)), c :: cs.takeWhile isWordChar,
      cs.dropWhile isWordChar⟩ := by
  have hhigh := lt_toNat_of_isWordStart h
  have hne : ∀ d : Char, d.toNat ≤ 0x40 → c ≠ d := by
    intro d hd he
    rw [he] at hhigh
    omega
  have hquote : isQuote c = false := by
    simp [isQuote, hne '\'' (by decide), hne '"' (by decide)]
  have hdigit : c.isDigit = false := by
    cases hc : c.isDigit with
    | false => rfl
    | true =>
      have hbounds := toNat_of_isDigit hc
      omega
  simp [lex?, hne ',' (by decide), hne ';' (by decide), hne '=' (by decide), hne '<' (by decide),
    hne '>' (by decide), hquote, hdigit, h]

theorem lex?_of_isDigit {c : Char} (cs : List Char) (h : c.isDigit = true) :
    lex? c cs = some ⟨.number (.ofList (c :: (splitNumber cs).1)), c :: (splitNumber cs).1,
      (splitNumber cs).2⟩ := by
  have hbounds := toNat_of_isDigit h
  have hne : ∀ d : Char, d.toNat < 0x30 ∨ 0x39 < d.toNat → c ≠ d := by
    intro d hd he
    rw [he] at hbounds
    omega
  have hquote : isQuote c = false := by
    simp [isQuote, hne '\'' (by decide), hne '"' (by decide)]
  simp [lex?, hne ',' (by decide), hne ';' (by decide), hne '=' (by decide), hne '<' (by decide),
    hne '>' (by decide), hquote, h]

theorem lex?_of_isQuote {quote : Char} (cs : List Char) (h : isQuote quote = true) :
    lex? quote cs = lexLiteral? quote cs := by
  simp only [isQuote, Bool.or_eq_true, beq_iff_eq] at h
  rcases h with rfl | rfl <;> rfl

theorem digitNext_eq_false {cs : List Char} (h : ∀ c ∈ cs, c.isDigit = false) :
    digitNext cs = false := by
  unfold digitNext
  cases hd : cs.dropWhile isSeparator with
  | nil => rfl
  | cons c rest =>
    have hmem : c ∈ cs := (List.dropWhile_sublist isSeparator).subset (by simp [hd])
    exact h c hmem

theorem digitNext_cons_separator {c : Char} (cs : List Char) (h : isSeparator c = true) :
    digitNext (c :: cs) = digitNext cs := by
  rw [digitNext, List.dropWhile_cons_of_pos h, digitNext]

theorem digitNext_cons {c : Char} (cs : List Char) (h : isSeparator c = false) :
    digitNext (c :: cs) = c.isDigit := by
  rw [digitNext, List.dropWhile_cons_of_neg (by simp [h])]

theorem splitNumber_cons {c : Char} {cs : List Char}
    (h : (c.isDigit || c == '.' || (isSeparator c && digitNext cs)) = true) :
    splitNumber (c :: cs) = (c :: (splitNumber cs).1, (splitNumber cs).2) := by
  rw [splitNumber, if_pos h]

theorem splitNumber_digits {ds : List Char} (rest : List Char)
    (hds : ∀ c ∈ ds, c.isDigit = true) :
    splitNumber (ds ++ rest) = (ds ++ (splitNumber rest).1, (splitNumber rest).2) := by
  induction ds with
  | nil => rfl
  | cons d ds ih =>
    have hd := hds d (List.mem_cons_self ..)
    rw [List.cons_append, splitNumber_cons (by simp [hd]),
      ih fun c hc => hds c (List.mem_cons_of_mem _ hc)]
    rfl

theorem splitNumber_eq {ds rest : List Char} (hds : ∀ c ∈ ds, c.isDigit = true)
    (hrest : ∀ c ∈ rest, c.isDigit = false ∧ c ≠ '.') : splitNumber (ds ++ rest) = (ds, rest) := by
  have hstop : splitNumber rest = ([], rest) := by
    cases rest with
    | nil => rfl
    | cons c rest =>
      obtain ⟨hdigit, hpoint⟩ := hrest c (List.mem_cons_self ..)
      have hnext := digitNext_eq_false fun d hd => (hrest d (List.mem_cons_of_mem _ hd)).1
      simp [splitNumber, hdigit, hpoint, hnext]
  rw [splitNumber_digits rest hds, hstop, List.append_nil]

theorem mem_splitNumber {cs : List Char} {c : Char} (hc : c ∈ (splitNumber cs).1) :
    c.isDigit = true ∨ c = '.' ∨ isSeparator c = true := by
  fun_induction splitNumber cs with
  | case1 => cases hc
  | case2 d cs hd more rest hsplit ih =>
    rcases List.mem_cons.1 hc with rfl | hc
    · simp only [Bool.or_eq_true, beq_iff_eq, Bool.and_eq_true] at hd
      rcases hd with (hd | hd) | hd
      · exact .inl hd
      · exact .inr (.inl hd)
      · exact .inr (.inr hd.1)
    · exact ih (by rwa [hsplit])
  | case3 => cases hc

namespace Lexes

theorem word {w : String} {rest : List Char} (hstart : ∃ c ∈ w.toList.head?, isWordStart c = true)
    (hchars : ∀ c ∈ w.toList, isWordChar c = true)
    (hrest : ∀ c ∈ rest.head?, isWordChar c = false) :
    Lexes (w.toList ++ rest) [.word w] rest := by
  obtain ⟨c, hhead, hc⟩ := hstart
  obtain ⟨cs, hcs⟩ := List.head?_eq_some_iff.1 hhead
  rw [hcs] at hchars
  have hrun : ∀ d ∈ cs, isWordChar d = true := fun d hd => hchars d (List.mem_cons_of_mem _ hd)
  obtain ⟨htake, hdrop⟩ := cut_append cs hrest
  rw [List.takeWhile_eq_self_iff.2 hrun] at htake
  rw [List.dropWhile_eq_nil_iff.2 hrun, List.nil_append] at hdrop
  have hblank := not_isBlank_of_isWordChar (isWordChar_of_isWordStart hc)
  have hlex := lex?_of_isWordStart (cs ++ rest) hc
  rw [htake, hdrop, ← hcs, String.ofList_toList] at hlex
  rw [hcs, List.cons_append]
  exact .token hblank hlex (.done rest)

theorem comma (rest : List Char) : Lexes (',' :: rest) [.comma] rest := by
  have hblank : isBlank ',' = false := by decide
  exact .token hblank rfl (.done rest)

theorem semicolon (rest : List Char) : Lexes (';' :: rest) [.semicolon] rest := by
  have hblank : isBlank ';' = false := by decide
  exact .token hblank rfl (.done rest)

theorem operator (op : Operator) {rest : List Char} (hrest : rest.head? ≠ some '=') :
    Lexes (op.symbol.toList ++ rest) [.operator op] rest := by
  have hblank : isBlank '=' = false ∧ isBlank '<' = false ∧ isBlank '>' = false := by decide
  have hlt : lex? '<' rest = some (lexComparison '<' rest) := rfl
  have hgt : lex? '>' rest = some (lexComparison '>' rest) := rfl
  rw [(lexComparison_alone hrest).1] at hlt
  rw [(lexComparison_alone hrest).2] at hgt
  cases op with
  | eq => exact .token hblank.1 rfl (.done rest)
  | lt => exact .token hblank.2.1 hlt (.done rest)
  | gt => exact .token hblank.2.2 hgt (.done rest)
  | le => exact .token hblank.2.1 rfl (.done rest)
  | ge => exact .token hblank.2.2 rfl (.done rest)

theorem literal {quote : Char} {s : String} (rest : List Char) (hquote : isQuote quote = true)
    (hs : quote ∉ s.toList) :
    Lexes (quote :: (s.toList ++ quote :: rest)) [.literal s] rest := by
  have hblank := not_isBlank_of_isQuote hquote
  have hlex := lex?_of_isQuote (s.toList ++ quote :: rest) hquote
  rw [lexLiteral?_eq_some hs, String.ofList_toList] at hlex
  exact .token hblank hlex (.done rest)

theorem number {ds rest : List Char} (hne : ds ≠ []) (hds : ∀ c ∈ ds, c.isDigit = true)
    (hrest : ∀ c ∈ rest, c.isDigit = false ∧ c ≠ '.') :
    Lexes (ds ++ rest) [.number (.ofList ds)] rest := by
  cases ds with
  | nil => exact absurd rfl hne
  | cons d ds =>
    have hd := hds d (List.mem_cons_self ..)
    have hsplit := splitNumber_eq (fun c hc => hds c (List.mem_cons_of_mem _ hc)) hrest
    have hlex := lex?_of_isDigit (ds ++ rest) hd
    rw [hsplit] at hlex
    exact .token (not_isBlank_of_isDigit hd) hlex (.done rest)

end Lexes

/-- A text splits in one way: what is split off first is what all its tokens start with. -/
theorem Lexes.split {cs mid : List Char} {ts us : List Token} (h : Lexes cs ts mid)
    (h' : Lexes cs us []) : ∃ vs, us = ts ++ vs ∧ Lexes mid vs [] := by
  induction h generalizing us with
  | done cs => exact ⟨us, rfl, h'⟩
  | blank hc _ ih =>
    cases h' with
    | blank _ h' => exact ih h'
    | token hc' => simp [hc] at hc'
  | @token _ _ _ _ ts hc hx _ ih =>
    cases h' with
    | blank hc' => simp [hc] at hc'
    | token _ hx' h' =>
      rw [hx] at hx'
      cases hx'
      obtain ⟨vs, rfl, hvs⟩ := ih h'
      exact ⟨vs, rfl, hvs⟩

theorem Lexes.eq_of_tokenize {text : List Char} {ls : List Located} {ts : List Token}
    (h : Lexes text ts []) (htext : tokenize text = .ok ls) : ls.map Located.token = ts := by
  obtain ⟨ls', htext', rfl⟩ := tokenizeFrom_of_lexes h rfl 0
  rw [Except.ok.inj (htext.symm.trans htext')]

theorem Lexes.append_text {cs rest more : List Char} {ts : List Token} (h : Lexes cs ts rest)
    (hrest : rest = []) (hts : ∀ t ∈ ts, t = .comma ∨ ∃ w, t = .word w)
    (hmore : ∀ c ∈ more.head?, isWordChar c = false) : Lexes (cs ++ more) ts more := by
  induction h with
  | done cs =>
    rw [hrest]
    exact .done more
  | blank hc _ ih => exact .blank hc (ih hrest hts)
  | @token c cs _ x ts hc hx _ ih =>
    have hlater := ih hrest fun t ht => hts t (List.mem_cons_of_mem _ ht)
    have htoken := hts x.token (List.mem_cons_self ..)
    -- Only words and commas are left: other tokens may take more of the text that is added.
    cases starts_of_lex? hx with
    | comma cs =>
      have hlex : lex? ',' (cs ++ more) = some ⟨.comma, [','], cs ++ more⟩ := rfl
      have hall := Lexes.token hc hlex hlater
      exact hall
    | word cs hstart =>
      have hlex := lex?_of_isWordStart (cs ++ more) hstart
      obtain ⟨htake, hdrop⟩ := cut_append cs hmore
      rw [htake, hdrop] at hlex
      have hall := Lexes.token hc hlex hlater
      exact hall
    | comparison cs =>
      obtain ⟨op, hop⟩ := lexComparison_token c cs
      simp [hop] at htoken
    | _ => simp at htoken

def tokensWithin : Nat → Nat → List Char → Except Nat (List Located)
  | 0, _, _ => .ok []
  | _ + 1, _, [] => .ok []
  | n + 1, offset, c :: cs =>
    if isBlank c then tokensWithin n (offset + c.utf8Size) cs
    else
      match lex? c cs with
      | none => .error offset
      | some x =>
        match tokensWithin n (offset + utf8Length x.spelling) x.rest with
        | .ok later => .ok (⟨offset, x.token⟩ :: later)
        | .error quote => .error quote

theorem tokenizeFrom_eq_tokensWithin {n offset : Nat} {cs : List Char} (h : cs.length ≤ n) :
    tokenizeFrom offset cs = tokensWithin n offset cs := by
  induction n generalizing offset cs with
  | zero =>
    obtain rfl := List.length_eq_zero_iff.1 (Nat.le_zero.1 h)
    rw [tokenizeFrom, tokensWithin]
  | succ n ih =>
    cases cs with
    | nil => rw [tokenizeFrom, tokensWithin]
    | cons c cs =>
      rw [List.length_cons] at h
      rw [tokenizeFrom, tokensWithin, ih (Nat.le_of_succ_le_succ h)]
      split
      · rfl
      · split
        · next hx => rw [hx]
        · next x hx =>
          have hrest := lex?_rest_length hx
          rw [List.length_cons] at hrest
          have hbound : x.rest.length ≤ n := by omega
          cases hlater : tokensWithin n (offset + utf8Length x.spelling) x.rest <;>
            simp [hx, ih hbound, hlater]

theorem dropBytes_append (cs rest : List Char) : dropBytes (utf8Length cs) (cs ++ rest) = rest := by
  induction cs with
  | nil => cases rest <;> rfl
  | cons c cs ih =>
    have hpos := Char.utf8Size_pos c
    obtain ⟨n, hn⟩ : ∃ n, utf8Length (c :: cs) = n + 1 := ⟨utf8Length (c :: cs) - 1, by
      rw [utf8Length]; omega⟩
    have hsub : n + 1 - c.utf8Size = utf8Length cs := by
      rw [utf8Length] at hn; omega
    rw [hn, List.cons_append, dropBytes, hsub, ih]
    · simp

theorem length_le_utf8Length (cs : List Char) : cs.length ≤ utf8Length cs := by
  induction cs with
  | nil => exact Nat.le_refl 0
  | cons c cs ih =>
    have hpos := Char.utf8Size_pos c
    rw [List.length_cons, utf8Length]
    omega

theorem trimStart_append_blanks {bs rest : List Char} (h : ∀ c ∈ bs, isBlank c = true) :
    trimStart (bs ++ rest) = trimStart rest :=
  List.dropWhile_append_of_pos h

theorem trimEnd_append_solid {cs rest : List Char} {c : Char} (hc : isBlank c = false) :
    trimEnd (cs ++ c :: rest) = cs ++ c :: trimEnd rest := by
  have hlast : ∀ xs : List Char, (xs ++ [c] ++ cs.reverse).dropWhile isBlank =
      xs.dropWhile isBlank ++ [c] ++ cs.reverse := by
    intro xs
    induction xs with
    | nil => simp [hc]
    | cons x xs ih =>
      by_cases hx : isBlank x = true
      · simpa [hx] using ih
      · simp [hx]
  have hrev : (cs ++ c :: rest).reverse = rest.reverse ++ [c] ++ cs.reverse := by simp
  rw [trimEnd, hrev, hlast, trimEnd]
  simp

theorem mem_of_mem_trimEnd {cs : List Char} {c : Char} (hc : c ∈ trimEnd cs) : c ∈ cs := by
  rw [trimEnd, List.mem_reverse] at hc
  exact List.mem_reverse.1 ((List.dropWhile_sublist _).mem hc)

theorem trim_append_solid {cs rest : List Char} {c : Char} (hc : isBlank c = false) :
    trim (cs ++ c :: rest) = trimStart cs ++ c :: trimEnd rest := by
  have hstop : ∀ d ∈ (c :: rest).head?, isBlank d = false := by simp [hc]
  rw [trim, trimStart, (cut_append cs hstop).2, trimEnd_append_solid hc, trimStart]

theorem trimEnd_blanks {bs : List Char} (h : ∀ c ∈ bs, isBlank c = true) : trimEnd bs = [] := by
  have hnil : bs.reverse.dropWhile isBlank = [] :=
    List.dropWhile_eq_nil_iff.2 fun c hc => h c (List.mem_reverse.1 hc)
  rw [trimEnd, hnil]
  rfl

theorem trimStart_of_head? {cs : List Char} (h : ∃ c ∈ cs.head?, isBlank c = false) :
    trimStart cs = cs := by
  obtain ⟨c, hhead, hc⟩ := h
  obtain ⟨rest, rfl⟩ := List.head?_eq_some_iff.1 hhead
  rw [trimStart, List.dropWhile_cons_of_neg (by simp [hc])]

theorem trim_blanks {b cs b' : List Char} (hb : ∀ c ∈ b, isBlank c = true)
    (hb' : ∀ c ∈ b', isBlank c = true) (hstart : ∃ c ∈ cs.head?, isBlank c = false)
    (hend : ∃ c ∈ cs.getLast?, isBlank c = false) : trim (b ++ (cs ++ b')) = cs := by
  have hhead : ∃ c ∈ (cs ++ b').head?, isBlank c = false := by
    obtain ⟨c, hhead, hc⟩ := hstart
    obtain ⟨rest, rfl⟩ := List.head?_eq_some_iff.1 hhead
    exact ⟨c, rfl, hc⟩
  obtain ⟨c, hlast, hc⟩ := hend
  obtain ⟨init, rfl⟩ := List.getLast?_eq_some_iff.1 hlast
  rw [trim, trimStart_append_blanks hb, trimStart_of_head? hhead, List.append_assoc,
    List.singleton_append, trimEnd_append_solid hc, trimEnd_blanks hb']

theorem exists_eq_blanks_trim (cs : List Char) :
    ∃ b b', cs = b ++ (trim cs ++ b') ∧ (∀ c ∈ b, isBlank c = true) ∧
      ∀ c ∈ b', isBlank c = true := by
  have hstart := List.takeWhile_append_dropWhile (p := isBlank) (l := cs)
  have hend := congrArg List.reverse
    (List.takeWhile_append_dropWhile (p := isBlank) (l := (trimStart cs).reverse))
  rw [List.reverse_append, List.reverse_reverse] at hend
  refine ⟨cs.takeWhile isBlank, ((trimStart cs).reverse.takeWhile isBlank).reverse, ?_, ?_, ?_⟩
  · rw [trim, trimEnd, hend, trimStart, hstart]
  · exact fun c hc => List.mem_takeWhile_imp hc
  · exact fun c hc => List.mem_takeWhile_imp (List.mem_reverse.1 hc)

end RowSelect.Query
