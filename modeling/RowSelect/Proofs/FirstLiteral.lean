import RowSelect.Proofs.Offsets

/-!
Where the first literal is. Case folding goes straight to the first quote and keeps what is quoted
there; splitting comes to it through all the tokens before. Both find the same literal at the same
byte, and where the quote is not closed both stop at that byte.
-/

set_option autoImplicit false

namespace RowSelect.Query

open RowSelect.Text

structure Protects (text folded before : List Char) (quote : Char) (body rest : List Char) :
    Prop where
  quiet : ∀ c ∈ before, isQuote c = false
  isQuote : isQuote quote = true
  closed : quote ∉ body
  text_eq : text = before ++ quote :: (body ++ quote :: rest)
  folded_eq : folded = lower before ++ quote :: (body ++ quote :: lower rest)

theorem exists_protects {text folded : List Char} (h : ∃ c ∈ text, isQuote c = true)
    (hfold : foldCase text = .ok folded) :
    ∃ before quote body rest, Protects text folded before quote body rest := by
  rcases foldCase_eq_ok_iff.1 hfold with
    ⟨hnone, -⟩ | ⟨before, quote, body, rest, htext, hbefore, hquote, hbody, hfolded⟩
  · obtain ⟨c, hc, hquote⟩ := h
    rw [hnone c hc] at hquote
    cases hquote
  · exact ⟨before, quote, body, rest, hbefore, hquote, hbody, htext, hfolded⟩

/-- The first literal among the tokens of a text begins where the first quote stands. -/
theorem Protects.find?_isLiteral {text folded before body rest : List Char} {quote : Char}
    {ls : List Located} (h : Protects text folded before quote body rest)
    (hls : tokenize text = .ok ls) :
    ls.find? (isLiteral ·.token) = some ⟨utf8Length before, .literal (.ofList body)⟩ := by
  obtain ⟨hbefore, hquote, hbody, rfl, -⟩ := h
  obtain ⟨pre, hpre⟩ := exists_tokenizeFrom_of_not_isQuote 0 hbefore
  rw [tokenize_around_literal rest hpre hquote hbody, map_eq_ok_iff] at hls
  obtain ⟨post, -, rfl⟩ := hls
  have hquiet : pre.find? (isLiteral ·.token) = none := by
    refine List.find?_eq_none.2 fun l hl => ?_
    have hnone := (lexes_of_tokenizeFrom hpre).noLiteral hbefore l.token (List.mem_map_of_mem hl)
    simp [hnone]
  rw [List.find?_append, hquiet]
  rfl

theorem tokenize_eq_error_of_foldCase {text : List Char} {n : Nat} (h : foldCase text = .error n) :
    tokenize text = .error n := by
  obtain ⟨before, quote, after, htext, hn, hbefore, hquote, hafter⟩ := foldCase_eq_error_iff.1 h
  exact tokenize_eq_error_iff.2 ⟨before, quote, after, htext, hn,
    exists_tokenizeFrom_of_not_isQuote 0 hbefore, hquote, hafter⟩

/-- If folding a text with quotes fails, splitting it fails at the same byte. If both succeed, the
first literal among the tokens begins at the byte where the part that folding keeps begins, and it
is the text that folding keeps between the quotes. -/
theorem first_literal_of_foldCase {text : List Char} (h : ∃ c ∈ text, isQuote c = true) :
    (∀ n, foldCase text = .error n → tokenize text = .error n) ∧
    ∀ folded ls, foldCase text = .ok folded → tokenize text = .ok ls →
      ∃ before quote body rest, Protects text folded before quote body rest ∧
        ls.find? (isLiteral ·.token) = some ⟨utf8Length before, .literal (.ofList body)⟩ := by
  refine ⟨fun _ => tokenize_eq_error_of_foldCase, fun folded ls hfold hls => ?_⟩
  obtain ⟨before, quote, body, rest, hprotects⟩ := exists_protects h hfold
  exact ⟨before, quote, body, rest, hprotects, hprotects.find?_isLiteral hls⟩

theorem first_literal_of_foldCase_grouped :
    (∃ c ∈ "Ä<1, 'It\"S' X".toList, isQuote c = true) ∧
    foldCase "Ä<1, 'It\"S' X".toList = .ok "ä<1, 'It\"S' x".toList ∧
    tokenize "Ä<1, 'It\"S' X".toList =
      .ok [⟨0, .word "Ä"⟩, ⟨2, .operator .lt⟩, ⟨3, .number "1"⟩, ⟨4, .comma⟩, ⟨6, .literal "It\"S"⟩,
        ⟨13, .word "X"⟩] ∧
    (∃ before quote body rest,
      Protects "Ä<1, 'It\"S' X".toList "ä<1, 'It\"S' x".toList before quote body rest ∧
        (⟨6, .literal "It\"S"⟩ : Located) = ⟨utf8Length before, .literal (.ofList body)⟩) ∧
    tokenize "Ä 1 'It\"S".toList = .error 5 := by
  have hquote : ∃ c ∈ "Ä<1, 'It\"S' X".toList, isQuote c = true := ⟨'\'', by decide +kernel, rfl⟩
  have hfold : foldCase "Ä<1, 'It\"S' X".toList = .ok "ä<1, 'It\"S' x".toList :=
    eq_ok_of_toOption (by decide +kernel)
  have hls : tokenize "Ä<1, 'It\"S' X".toList =
      .ok [⟨0, .word "Ä"⟩, ⟨2, .operator .lt⟩, ⟨3, .number "1"⟩, ⟨4, .comma⟩, ⟨6, .literal "It\"S"⟩,
        ⟨13, .word "X"⟩] :=
    tokenize_of_tokensWithin (by decide +kernel)
  have hopen : foldCase "Ä 1 'It\"S".toList = .error 5 := by
    rw [foldCase]
    decide +kernel
  have herror := (first_literal_of_foldCase ⟨'\'', by decide +kernel, rfl⟩).1 5 hopen
  obtain ⟨before, quote, body, rest, hprotects, hfind⟩ :=
    (first_literal_of_foldCase hquote).2 _ _ hfold hls
  exact ⟨hquote, hfold, hls, ⟨before, quote, body, rest, hprotects, Option.some.inj hfind⟩, herror⟩

end RowSelect.Query
