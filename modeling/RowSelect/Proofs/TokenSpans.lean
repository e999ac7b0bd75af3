import RowSelect.Proofs.Grammar
import RowSelect.Proofs.Lexing

/-!
Where the tokens of a text stand. Each has a span of its own, which spells it, and between the spans
there is white space only; a text without tokens has a quote that nothing closes, and what stands
before that quote is split as it would be alone.
-/

set_option autoImplicit false

namespace RowSelect.Query

open RowSelect.Text

inductive Spelling : Token → List Char → Prop where
  | word (w : String) : Spelling (.word w) w.toList
  | number (s : String) : Spelling (.number s) s.toList
  | literal {quote : Char} {s : String} (hquote : isQuote quote = true) (hs : quote ∉ s.toList) :
      Spelling (.literal s) (quote :: s.toList ++ [quote])
  | comma : Spelling .comma [',']
  | semicolon : Spelling .semicolon [';']
  | operator (op : Operator) : Spelling (.operator op) op.symbol.toList
  | other (c : Char) : Spelling (.other c) [c]

/-- Tokens with their spans in a text whose first byte has the number `offset`. A span begins at the
byte of its token, and it begins and ends between two characters of the text. -/
structure Spans (offset : Nat) (text : List Char) (ps : List (Located × List Char)) : Prop where
  spelled : ∀ p ∈ ps, p.2 ≠ [] ∧ Spelling p.1.token p.2
  placed : ∀ p ∈ ps, ∃ before after, text = before ++ (p.2 ++ after) ∧
    p.1.offset = offset + utf8Length before
  apart : ps.Pairwise fun p q => p.1.offset + utf8Length p.2 ≤ q.1.offset
  blank : ∀ before c after, text = before ++ c :: after → isBlank c = true ∨
    ∃ p ∈ ps, p.1.offset ≤ offset + utf8Length before ∧
      offset + utf8Length before + c.utf8Size ≤ p.1.offset + utf8Length p.2

theorem lexComparison_spelling {c : Char} (cs : List Char) (hc : c = '=' ∨ c = '<' ∨ c = '>') :
    ∃ op, (lexComparison c cs).token = .operator op ∧
      (lexComparison c cs).spelling = op.symbol.toList := by
  unfold lexComparison
  split
  · exact ⟨.le, rfl, rfl⟩
  · exact ⟨.lt, rfl, rfl⟩
  · exact ⟨.ge, rfl, rfl⟩
  · exact ⟨.gt, rfl, rfl⟩
  · rcases hc with rfl | rfl | rfl
    · exact ⟨.eq, rfl, rfl⟩
    · contradiction
    · contradiction

namespace Spelling

theorem word_ofList (cs : List Char) : Spelling (.word (.ofList cs)) cs := by
  have hspelling := word (.ofList cs)
  rwa [String.toList_ofList] at hspelling

theorem number_ofList (cs : List Char) : Spelling (.number (.ofList cs)) cs := by
  have hspelling := number (.ofList cs)
  rwa [String.toList_ofList] at hspelling

theorem literal_ofList {quote : Char} {body : List Char} (hquote : isQuote quote = true)
    (hbody : quote ∉ body) : Spelling (.literal (.ofList body)) (quote :: body ++ [quote]) := by
  have hspelling := literal (s := .ofList body) hquote (by simpa using hbody)
  rwa [String.toList_ofList] at hspelling

end Spelling

theorem spelling_of_lex? {c : Char} {cs : List Char} {x : Lexed} (h : lex? c cs = some x) :
    Spelling x.token x.spelling := by
  cases starts_of_lex? h with
  | comma => exact .comma
  | semicolon => exact .semicolon
  | comparison cs hc =>
    obtain ⟨op, htoken, hspelling⟩ := lexComparison_spelling cs hc
    rw [htoken, hspelling]
    exact .operator op
  | literal _ hquote hbody => exact .literal_ofList hquote hbody
  | number => exact .number_ofList _
  | word => exact .word_ofList _
  | other => exact .other c

namespace Spans

variable {offset : Nat} {cs : List Char} {ps : List (Located × List Char)}

theorem nil (offset : Nat) : Spans offset [] [] :=
  ⟨by simp, by simp, .nil, by simp⟩

theorem cons_blank {c : Char} (hc : isBlank c = true) (h : Spans (offset + c.utf8Size) cs ps) :
    Spans offset (c :: cs) ps := by
  refine ⟨h.spelled, fun p hp => ?_, h.apart, fun before d after hcut => ?_⟩
  · obtain ⟨before, after, rfl, hoffset⟩ := h.placed p hp
    exact ⟨c :: before, after, rfl, by rw [hoffset, utf8Length, Nat.add_assoc]⟩
  · cases before with
    | nil =>
      obtain ⟨rfl, -⟩ := List.cons.inj hcut
      exact .inl hc
    | cons b before =>
      obtain ⟨rfl, hcs⟩ := List.cons.inj hcut
      rcases h.blank before d after hcs with hd | ⟨p, hp, hstart, hend⟩
      · exact .inl hd
      · refine .inr ⟨p, hp, ?_, ?_⟩
        · rwa [utf8Length, ← Nat.add_assoc]
        · rwa [utf8Length, ← Nat.add_assoc]

theorem cons_token {t : Token} {span : List Char} (hspelling : Spelling t span) (hne : span ≠ [])
    (h : Spans (offset + utf8Length span) cs ps) :
    Spans offset (span ++ cs) ((⟨offset, t⟩, span) :: ps) := by
  refine ⟨?_, ?_, List.pairwise_cons.2 ⟨fun p hp => ?_, h.apart⟩, fun before c after hcut => ?_⟩
  · exact List.forall_mem_cons.2 ⟨⟨hne, hspelling⟩, h.spelled⟩
  · refine List.forall_mem_cons.2 ⟨⟨[], cs, rfl, rfl⟩, fun p hp => ?_⟩
    obtain ⟨before, after, rfl, hoffset⟩ := h.placed p hp
    exact ⟨span ++ before, after, by simp, by rw [hoffset, utf8Length_append, Nat.add_assoc]⟩
  · obtain ⟨before, after, -, hoffset⟩ := h.placed p hp
    simp only [hoffset]
    omega
  · rcases List.append_eq_append_iff.1 hcut with ⟨more, rfl, hcs⟩ | ⟨more, rfl, hmore⟩
    · rcases h.blank more c after hcs with hc | ⟨p, hp, hstart, hend⟩
      · exact .inl hc
      · refine .inr ⟨p, List.mem_cons_of_mem _ hp, ?_, ?_⟩
        · rwa [utf8Length_append, ← Nat.add_assoc]
        · rwa [utf8Length_append, ← Nat.add_assoc]
    · cases more with
      | nil =>
        rcases h.blank [] c after hmore.symm with hc | ⟨p, hp, hstart, hend⟩
        · exact .inl hc
        · refine .inr ⟨p, List.mem_cons_of_mem _ hp, ?_, ?_⟩
          · simpa [utf8Length] using hstart
          · simpa [utf8Length] using hend
      | cons d more =>
        obtain ⟨rfl, -⟩ := List.cons.inj hmore
        refine .inr ⟨_, List.mem_cons_self .., ?_, ?_⟩
        · simp
        · simp only [utf8Length_append, utf8Length]
          omega

end Spans

theorem spans_of_tokenizeFrom {offset : Nat} {cs : List Char} {ls : List Located}
    (h : tokenizeFrom offset cs = .ok ls) : ∃ ps, ps.map Prod.fst = ls ∧ Spans offset cs ps := by
  fun_induction tokenizeFrom offset cs generalizing ls with
  | case1 offset =>
    cases h
    exact ⟨[], rfl, .nil offset⟩
  | case2 offset c cs hc ih =>
    obtain ⟨ps, hps, hspans⟩ := ih h
    exact ⟨ps, hps, hspans.cons_blank hc⟩
  | case3 => cases h
  | case4 offset c cs hc x hx later hlater ih =>
    cases h
    obtain ⟨ps, rfl, hspans⟩ := ih hlater
    refine ⟨(⟨offset, x.token⟩, x.spelling) :: ps, rfl, ?_⟩
    rw [← lex?_append hx]
    exact hspans.cons_token (spelling_of_lex? hx) (lex?_spelling_ne_nil hx)
  | case5 => cases h

theorem splitNumber_append_quote {quote : Char} (cs after : List Char)
    (hquote : isQuote quote = true) :
    splitNumber (cs ++ quote :: after) =
      ((splitNumber cs).1, (splitNumber cs).2 ++ quote :: after) := by
  have hstop : quote.isDigit = false ∧ quote ≠ '.' ∧ isSeparator quote = false := by
    simp only [isQuote, Bool.or_eq_true, beq_iff_eq] at hquote
    rcases hquote with rfl | rfl <;> decide
  have hnext : ∀ xs, digitNext (xs ++ quote :: after) = digitNext xs := by
    intro xs
    have hafter : ∀ y ∈ (quote :: after).head?, isSeparator y = false := by simp [hstop]
    have hcut := (cut_append xs hafter).2
    unfold digitNext
    rw [hcut]
    cases xs.dropWhile isSeparator <;> simp [hstop]
  induction cs with
  | nil => simp [splitNumber, hstop]
  | cons c cs ih =>
    rw [List.cons_append, splitNumber, splitNumber, hnext, ih]
    split <;> simp

theorem lexComparison_append_quote {c quote : Char} (cs after : List Char)
    (hquote : isQuote quote = true) :
    lexComparison c (cs ++ quote :: after) =
      { lexComparison c cs with rest := (lexComparison c cs).rest ++ quote :: after } := by
  have hne : quote ≠ '=' := by
    rintro rfl
    exact absurd hquote (by decide)
  by_cases hlt : c = '<'
  · subst hlt
    cases cs with
    | nil => simp [lexComparison, hne]
    | cons d cs => by_cases hd : d = '=' <;> simp [lexComparison, hd]
  by_cases hgt : c = '>'
  · subst hgt
    cases cs with
    | nil => simp [lexComparison, hne]
    | cons d cs => by_cases hd : d = '=' <;> simp [lexComparison, hd]
  · simp [lexComparison, hlt, hgt]

theorem lex?_append_quote_iff {c quote : Char} {cs rest after spelling : List Char} {t : Token}
    (hquote : isQuote quote = true) :
    lex? c (cs ++ quote :: after) = some ⟨t, spelling, rest ++ quote :: after⟩ ↔
      lex? c cs = some ⟨t, spelling, rest⟩ := by
  by_cases hc : isQuote c = true
  · rw [lex?_of_isQuote _ hc, lex?_of_isQuote _ hc, lexLiteral?_eq_some_iff,
      lexLiteral?_eq_some_iff]
    simp only [Lexed.mk.injEq]
    constructor
    · intro h
      obtain ⟨body, _, hcs, hbody, rfl, rfl, rfl⟩ := h
      refine ⟨body, rest, ?_, hbody, rfl, rfl, rfl⟩
      exact List.append_cancel_right (by simpa using hcs)
    · intro h
      obtain ⟨body, _, rfl, hbody, rfl, rfl, rfl⟩ := h
      exact ⟨body, _, by simp, hbody, rfl, rfl, rfl⟩
  · have hextend : lex? c (cs ++ quote :: after) =
        (lex? c cs).map fun x => { x with rest := x.rest ++ quote :: after } := by
      have hstop : ∀ d ∈ (quote :: after).head?, isWordChar d = false := by
        intro d hd
        obtain rfl : quote = d := by simpa using hd
        by_contra hword
        rw [not_isQuote_of_isWordChar (by simpa using hword)] at hquote
        cases hquote
      obtain ⟨htake, hdrop⟩ := cut_append cs hstop
      have hother : isQuote c = false := by simpa using hc
      unfold lex?
      simp only [hother, Bool.false_eq_true, if_false, lexComparison_append_quote cs after hquote,
        splitNumber_append_quote cs after hquote, htake, hdrop]
      split_ifs <;> rfl
    rw [hextend, Option.map_eq_some_iff]
    constructor
    · intro h
      obtain ⟨x, hx, heq⟩ := h
      simp only [Lexed.mk.injEq, List.append_left_inj] at heq
      obtain ⟨rfl, rfl, rfl⟩ := heq
      exact hx
    · intro h
      exact ⟨_, h, rfl⟩

theorem lexLiteral?_eq_none_iff {quote : Char} {cs : List Char} :
    lexLiteral? quote cs = none ↔ quote ∉ cs := by
  rw [← dropWhile_bne_eq_nil_iff, lexLiteral?]
  cases cs.dropWhile (· != quote) <;> simp

theorem lex?_eq_none_iff {c : Char} {cs : List Char} :
    lex? c cs = none ↔ isQuote c = true ∧ c ∉ cs := by
  by_cases hc : isQuote c = true
  · rw [lex?_of_isQuote _ hc, lexLiteral?_eq_none_iff]
    simp only [hc, true_and]
  · have hother : isQuote c = false := by simpa using hc
    unfold lex?
    simp only [hother, Bool.false_eq_true, if_false, false_and, iff_false]
    split_ifs <;> simp

theorem lex?_spelling_eq_cons {c : Char} {cs : List Char} {x : Lexed} (h : lex? c cs = some x) :
    ∃ more, x.spelling = c :: more ∧ cs = more ++ x.rest := by
  have happend := lex?_append h
  cases hspelling : x.spelling with
  | nil => exact absurd hspelling (lex?_spelling_ne_nil h)
  | cons d more =>
    rw [hspelling, List.cons_append] at happend
    obtain ⟨rfl, hcs⟩ := List.cons.inj happend
    exact ⟨more, rfl, hcs.symm⟩

namespace Lexes

theorem append_quote {cs rest : List Char} {quote : Char} {ts : List Token}
    (h : Lexes cs ts rest) (after : List Char) (hquote : isQuote quote = true) :
    Lexes (cs ++ quote :: after) ts (rest ++ quote :: after) := by
  induction h with
  | done cs => exact .done _
  | blank hc _ ih => exact .blank hc ih
  | @token c cs _ x _ hc hx _ ih =>
    have hlex : lex? c (cs ++ quote :: after) =
        some ⟨x.token, x.spelling, x.rest ++ quote :: after⟩ :=
      (lex?_append_quote_iff hquote).2 hx
    have hall := Lexes.token hc hlex ih
    exact hall

theorem before_quote {cs after : List Char} {quote : Char} {ts : List Token}
    (h : Lexes cs ts (quote :: after)) (hquote : isQuote quote = true) :
    ∃ before, cs = before ++ quote :: after ∧ Lexes before ts [] := by
  generalize hrest : quote :: after = rest at h
  induction h with
  | done cs => exact ⟨[], rfl, .done []⟩
  | @blank c _ _ _ hc _ ih =>
    obtain ⟨before, rfl, hbefore⟩ := ih hrest
    exact ⟨c :: before, rfl, .blank hc hbefore⟩
  | @token c cs _ x _ hc hx _ ih =>
    obtain ⟨before, hmore, hbefore⟩ := ih hrest
    obtain ⟨spelled, -, rfl⟩ := lex?_spelling_eq_cons hx
    have hquoted : lex? c (spelled ++ before ++ quote :: after) =
        some ⟨x.token, x.spelling, before ++ quote :: after⟩ := by
      rw [List.append_assoc, hrest, ← hmore]
      exact hx
    have hlex := (lex?_append_quote_iff hquote).1 hquoted
    have hall := Lexes.token hc hlex hbefore
    exact ⟨c :: (spelled ++ before), by rw [hmore]; simp, hall⟩

theorem tokenizeFrom_eq_error {cs rest : List Char} {ts : List Token} (h : Lexes cs ts rest)
    (hrest : ∀ offset, tokenizeFrom offset rest = .error offset) :
    ∃ before, cs = before ++ rest ∧
      ∀ offset, tokenizeFrom offset cs = .error (offset + utf8Length before) := by
  induction h with
  | done cs => exact ⟨[], rfl, hrest⟩
  | @blank c _ _ _ hc _ ih =>
    obtain ⟨before, rfl, hbefore⟩ := ih hrest
    refine ⟨c :: before, rfl, fun offset => ?_⟩
    rw [tokenizeFrom, if_pos hc, hbefore, utf8Length, Nat.add_assoc]
  | @token c cs _ x _ hc hx _ ih =>
    obtain ⟨before, hmore, hbefore⟩ := ih hrest
    refine ⟨x.spelling ++ before, ?_, fun offset => ?_⟩
    · rw [List.append_assoc, ← hmore, lex?_append hx]
    · rw [tokenizeFrom_token hc hx, hbefore, utf8Length_append, Nat.add_assoc]
      rfl

end Lexes

/-- Splitting fails only where the next token would begin with a quote that the text has no second
of. -/
theorem lexes_of_tokenizeFrom_error {offset n : Nat} {cs : List Char}
    (h : tokenizeFrom offset cs = .error n) :
    ∃ before quote after ts, cs = before ++ quote :: after ∧ n = offset + utf8Length before ∧
      Lexes cs ts (quote :: after) ∧ isQuote quote = true ∧ quote ∉ after := by
  fun_induction tokenizeFrom offset cs with
  | case1 => cases h
  | case2 offset c cs hc ih =>
    obtain ⟨before, quote, after, ts, rfl, rfl, hlexes, hopen⟩ := ih h
    exact ⟨c :: before, quote, after, ts, rfl, by rw [utf8Length, Nat.add_assoc],
      .blank hc hlexes, hopen⟩
  | case3 offset c cs hc hx =>
    cases h
    exact ⟨[], c, cs, [], rfl, rfl, .done _, lex?_eq_none_iff.1 hx⟩
  | case4 => cases h
  | case5 offset c cs hc x hx quote' hlater ih =>
    cases h
    obtain ⟨before, quote, after, ts, hrest, rfl, hlexes, hopen⟩ := ih hlater
    refine ⟨x.spelling ++ before, quote, after, x.token :: ts, ?_, ?_, ?_, hopen⟩
    · rw [List.append_assoc, ← hrest, lex?_append hx]
    · rw [utf8Length_append, Nat.add_assoc]
    · exact .token (by simpa using hc) hx hlexes

theorem tokenizeFrom_open {quote : Char} {after : List Char} (hquote : isQuote quote = true)
    (hafter : quote ∉ after) (offset : Nat) :
    tokenizeFrom offset (quote :: after) = .error offset := by
  have hblank := not_isBlank_of_isQuote hquote
  have hnone := lex?_eq_none_iff.2 ⟨hquote, hafter⟩
  rw [tokenizeFrom, if_neg (by simp [hblank])]
  split
  · rfl
  · next x hx => simp [hnone] at hx

theorem tokenize_eq_error_iff {text : List Char} {n : Nat} :
    tokenize text = .error n ↔
      ∃ before quote after, text = before ++ quote :: after ∧ n = utf8Length before ∧
        (∃ ls, tokenize before = .ok ls) ∧ isQuote quote = true ∧ quote ∉ after := by
  constructor
  · intro h
    obtain ⟨before, quote, after, ts, hcut, rfl, hlexes, hquote, hafter⟩ :=
      lexes_of_tokenizeFrom_error h
    obtain ⟨before', hcut', hbefore⟩ := hlexes.before_quote hquote
    obtain rfl := List.append_cancel_right (hcut.symm.trans hcut')
    obtain ⟨ls, hls, -⟩ := tokenizeFrom_of_lexes hbefore rfl 0
    exact ⟨before, quote, after, hcut, Nat.zero_add _, ⟨ls, hls⟩, hquote, hafter⟩
  · intro h
    obtain ⟨before, quote, after, rfl, rfl, ⟨ls, hls⟩, hquote, hafter⟩ := h
    have hlexes := (lexes_of_tokenizeFrom hls).append_quote after hquote
    obtain ⟨before', hcut, herror⟩ :=
      hlexes.tokenizeFrom_eq_error (tokenizeFrom_open hquote hafter)
    obtain rfl := List.append_cancel_right hcut
    rw [tokenize, herror, Nat.zero_add]

/-- Splitting a text loses nothing: its tokens stand in spans that spell them, in order, with white
space between. It fails only at a quote that is not closed, behind a text that can be split. -/
theorem tokenize_spans (text : List Char) :
    (∀ ls, tokenize text = .ok ls → ∃ ps, ps.map Prod.fst = ls ∧ Spans 0 text ps) ∧
    ∀ n, tokenize text = .error n ↔
      ∃ before quote after, text = before ++ quote :: after ∧ n = utf8Length before ∧
        (∃ ls, tokenize before = .ok ls) ∧ isQuote quote = true ∧ quote ∉ after :=
  ⟨fun _ h => spans_of_tokenizeFrom h, fun _ => tokenize_eq_error_iff⟩

theorem tokenize_spans_umlaut :
    (∃ ps, ps.map Prod.fst =
        [⟨0, .word "ä"⟩, ⟨3, .operator .le⟩, ⟨6, .literal "ö"⟩, ⟨11, .semicolon⟩] ∧
      Spans 0 "ä <= 'ö' ;".toList ps) ∧
    tokenize "ä <= 'ö' \"'".toList = .error 11 := by
  have hclosed : tokenize "ä <= 'ö' ;".toList =
      .ok [⟨0, .word "ä"⟩, ⟨3, .operator .le⟩, ⟨6, .literal "ö"⟩, ⟨11, .semicolon⟩] :=
    tokenize_of_tokensWithin (by decide +kernel)
  have hbefore : tokenize "ä <= 'ö' ".toList =
      .ok [⟨0, .word "ä"⟩, ⟨3, .operator .le⟩, ⟨6, .literal "ö"⟩] :=
    tokenize_of_tokensWithin (by decide +kernel)
  refine ⟨(tokenize_spans _).1 _ hclosed, ((tokenize_spans _).2 11).2 ?_⟩
  exact ⟨_, '"', ['\''], rfl, by decide +kernel, ⟨_, hbefore⟩, by decide, by decide⟩

end RowSelect.Query
