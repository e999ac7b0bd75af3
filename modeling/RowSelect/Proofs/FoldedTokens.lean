import RowSelect.Proofs.LoweredText
import RowSelect.Proofs.StringLiterals
import RowSelect.Proofs.TokenSpans

/-!
The tokens of a folded text. Lower-casing keeps the kind of every character but the dotted I, whose
dot is part of no word; so a text without such a letter in its words is split where its folded form
is.
-/

set_option autoImplicit false

namespace RowSelect.Query

open RowSelect.Text

theorem head?_lowerFrom_eq_some_iff {before cs : List Char} {s : Char} (hs : s.toNat ≤ 0x40) :
    (lowerFrom before cs).head? = some s ↔ cs.head? = some s := by
  cases cs with
  | nil => rfl
  | cons c cs =>
    rw [lowerFrom_cons]
    by_cases hc : c = dottedI
    · have hdot : dottedI ≠ s ∧ 'i' ≠ s := by
        constructor <;> (rintro rfl; exact absurd hs (by decide))
      rw [hc, lowerBetween_dottedI]
      simp [hdot]
    · obtain ⟨d, hd, halike⟩ := exists_lowerBetween_singleton before cs hc
      have hbeq := halike.beq_eq hs
      rw [Bool.eq_iff_iff, beq_iff_eq, beq_iff_eq] at hbeq
      rw [hd]
      simpa using hbeq

theorem digitNext_lowerFrom (before cs : List Char) :
    digitNext (lowerFrom before cs) = digitNext cs := by
  induction cs generalizing before with
  | nil => rfl
  | cons c cs ih =>
    rw [lowerFrom_cons]
    by_cases hc : c = dottedI
    · rw [hc, lowerBetween_dottedI, digitNext_cons cs (by decide)]
      exact digitNext_cons _ (by decide)
    · obtain ⟨d, hd, halike⟩ := exists_lowerBetween_singleton before cs hc
      rw [hd, List.singleton_append]
      have hsame := halike.isSeparator_eq
      cases hsep : isSeparator c with
      | true =>
        rw [digitNext_cons_separator _ (hsame.trans hsep), digitNext_cons_separator _ hsep, ih]
      | false => rw [digitNext_cons _ (hsame.trans hsep), digitNext_cons _ hsep, halike.isDigit_eq]

theorem not_isAlphabetic_of_number {c : Char}
    (hc : c.isDigit = true ∨ c = '.' ∨ isSeparator c = true) : isAlphabetic c = false := by
  have hlow : c.toNat ≤ 0x40 := by
    simp only [isSeparator, Bool.or_eq_true, beq_iff_eq] at hc
    rcases hc with hdigit | rfl | rfl | rfl
    · have hbounds := toNat_of_isDigit hdigit
      omega
    · decide
    · decide
    · decide
  cases hletter : isAlphabetic c with
  | false => rfl
  | true =>
    have hhigh := lt_toNat_of_isAlphabetic hletter
    omega

theorem splitNumber_lowerFrom (before cs : List Char) :
    splitNumber (lowerFrom before cs) =
      ((splitNumber cs).1,
        lowerFrom ((splitNumber cs).1.reverse ++ before) (splitNumber cs).2) := by
  induction cs generalizing before with
  | nil => rfl
  | cons c cs ih =>
    cases hgoes : c.isDigit || c == '.' || (isSeparator c && digitNext cs) with
    | true =>
      have hletter : isAlphabetic c = false := by
        refine not_isAlphabetic_of_number ?_
        simp only [Bool.or_eq_true, beq_iff_eq, Bool.and_eq_true] at hgoes
        tauto
      have hgoes' := hgoes
      rw [← digitNext_lowerFrom (c :: before)] at hgoes'
      rw [lowerFrom_cons_of_not_alphabetic _ _ hletter, splitNumber_cons hgoes',
        splitNumber_cons hgoes, ih, List.reverse_cons, List.append_assoc]
      rfl
    | false =>
      have hstop : splitNumber (c :: cs) = ([], c :: cs) := by
        rw [splitNumber, hgoes]
        rfl
      -- What the character becomes stops the number, too: it is of the same kind.
      rw [hstop, lowerFrom_cons]
      by_cases hc : c = dottedI
      · rw [hc, lowerBetween_dottedI]
        rfl
      · obtain ⟨d, hd, halike⟩ := exists_lowerBetween_singleton before cs hc
        rw [← halike.isDigit_eq, ← halike.beq_eq (by decide), ← halike.isSeparator_eq,
          ← digitNext_lowerFrom (c :: before)] at hgoes
        rw [hd, List.singleton_append, splitNumber, hgoes]
        simp [lowerFrom_cons, hd]

theorem isWordChar_of_mem_lowerBetween {before after run : List Char} {d : Char}
    (hrun : ∀ c ∈ run, isWordChar c = true) (hdot : dottedI ∉ run)
    (hd : d ∈ lowerBetween before after run) : isWordChar d = true := by
  induction run generalizing before with
  | nil => cases hd
  | cons c run ih =>
    obtain ⟨hne, hmore⟩ := not_or.1 (List.mem_cons.not.1 hdot)
    obtain ⟨e, he, halike⟩ := exists_lowerBetween_singleton before (run ++ after) (Ne.symm hne)
    rw [lowerBetween_cons, he, List.singleton_append, List.mem_cons] at hd
    rcases hd with rfl | hd
    · rw [halike.isWordChar_eq, hrun c (List.mem_cons_self ..)]
    · exact ih (fun c hc => hrun c (List.mem_cons_of_mem _ hc)) hmore hd

theorem not_isWordChar_of_head?_lowerFrom (before : List Char) {cs : List Char}
    (h : ∀ c ∈ cs.head?, isWordChar c = false) :
    ∀ d ∈ (lowerFrom before cs).head?, isWordChar d = false := by
  cases cs with
  | nil => nofun
  | cons c cs =>
    have hc : isWordChar c = false := h c rfl
    have hletter : isAlphabetic c = false := by
      cases hletter : isAlphabetic c with
      | false => rfl
      | true => simp [isWordChar, hletter] at hc
    rw [lowerFrom_cons_of_not_alphabetic _ _ hletter]
    simpa using hc

/-- A token spelled in a text, and what it is in the lower case of that text. The characters before
it are given nearest first. -/
inductive Lowered (before after : List Char) : List Char → Token → Token → Prop where
  | word (span : List Char) :
      Lowered before after span (.word (.ofList span))
        (.word (.ofList (lowerBetween before after span)))
  | literal {quote : Char} {body : List Char} (hquote : isQuote quote = true)
      (hbody : quote ∉ body) :
      Lowered before after (quote :: body ++ [quote]) (.literal (.ofList body))
        (.literal (.ofList (lowerBetween (quote :: before) (quote :: after) body)))
  | other {t : Token} {span : List Char} (hspan : Spelling t span) (hword : ∀ w, t ≠ .word w)
      (hliteral : ∀ s, t ≠ .literal s) : Lowered before after span t t

theorem Lowered.spelling {before after span : List Char} {t t' : Token}
    (h : Lowered before after span t t') : Spelling t span := by
  cases h with
  | word => exact .word_ofList span
  | literal hquote hbody => exact .literal_ofList hquote hbody
  | other hspan => exact hspan

theorem not_isAlphabetic_of_isQuote {quote : Char} (h : isQuote quote = true) :
    isAlphabetic quote = false := by
  cases hletter : isAlphabetic quote with
  | false => rfl
  | true =>
    have hsign := not_isSign_of_isAlphabetic hletter
    rw [isSign_of_isQuote h] at hsign
    cases hsign

theorem lex?_of_comparison {c : Char} (cs : List Char) (hc : c = '=' ∨ c = '<' ∨ c = '>') :
    lex? c cs = some (lexComparison c cs) := by
  rcases hc with rfl | rfl | rfl <;> rfl

theorem lexComparison_lowerFrom {before : List Char} {c : Char} (cs : List Char)
    (hc : c = '=' ∨ c = '<' ∨ c = '>') :
    lexComparison c (lowerFrom (c :: before) cs) =
      ⟨(lexComparison c cs).token, (lexComparison c cs).spelling,
        lowerFrom ((lexComparison c cs).spelling.reverse ++ before) (lexComparison c cs).rest⟩ := by
  have hequals : isAlphabetic '=' = false := by decide +kernel
  by_cases hhead : cs.head? = some '='
  · obtain ⟨rest, rfl⟩ := List.head?_eq_some_iff.1 hhead
    rw [lowerFrom_cons_of_not_alphabetic _ _ hequals]
    rcases hc with rfl | rfl | rfl <;>
      simp [lexComparison, lowerFrom_cons_of_not_alphabetic _ _ hequals]
  · have hhead' : (lowerFrom (c :: before) cs).head? ≠ some '=' := by
      rwa [Ne, head?_lowerFrom_eq_some_iff (by decide)]
    rcases hc with rfl | rfl | rfl
    · rfl
    · rw [(lexComparison_alone hhead).1, (lexComparison_alone hhead').1]
      rfl
    · rw [(lexComparison_alone hhead).2, (lexComparison_alone hhead').2]
      rfl

theorem Lowered.eq_lower {before after span : List Char} {w : String} {t : Token}
    (h : Lowered before after span (.word w) t)
    (hw : (∀ c ∈ w.toList, c ≠ 'Σ') ∨ EndsCase before ∧ EndsCase after) :
    t = .word (.ofList (lower w.toList)) := by
  cases h with
  | word =>
    rw [String.toList_ofList] at hw ⊢
    rcases hw with hsigma | ⟨hbefore, hafter⟩
    · rw [lowerBetween_eq_lower hsigma]
    · rw [lowerBetween_eq_lower_of_endsCase _ hbefore hafter]
  | other _ hword => exact absurd rfl (hword w)

theorem lex?_lowerBetween (before : List Char) {run rest : List Char} {c : Char}
    (hc : isWordStart c = true) (hrun : ∀ d ∈ c :: run, isWordChar d = true)
    (hdot : dottedI ∉ c :: run) (hrest : ∀ d ∈ rest.head?, isWordChar d = false) :
    ∃ d more, lowerBetween before rest (c :: run) = d :: more ∧
      lex? d (more ++ lowerFrom ((c :: run).reverse ++ before) rest) =
        some ⟨.word (.ofList (d :: more)), d :: more,
          lowerFrom ((c :: run).reverse ++ before) rest⟩ := by
  obtain ⟨hne, -⟩ := not_or.1 (List.mem_cons.not.1 hdot)
  obtain ⟨d, hd, halike⟩ := exists_lowerBetween_singleton before (run ++ rest) (Ne.symm hne)
  have hspan := lowerBetween_cons before rest c run
  rw [hd, List.singleton_append] at hspan
  generalize lowerBetween (c :: before) rest run = more at hspan
  have hchars : ∀ e ∈ more, isWordChar e = true := by
    intro e he
    have hmem : e ∈ lowerBetween before rest (c :: run) := by
      rw [hspan]
      exact List.mem_cons_of_mem _ he
    exact isWordChar_of_mem_lowerBetween hrun hdot hmem
  obtain ⟨htake, hdrop⟩ := cut_append more
    (not_isWordChar_of_head?_lowerFrom ((c :: run).reverse ++ before) hrest)
  rw [List.takeWhile_eq_self_iff.2 hchars] at htake
  rw [List.dropWhile_eq_nil_iff.2 hchars, List.nil_append] at hdrop
  refine ⟨d, more, hspan, ?_⟩
  rw [lex?_of_isWordStart _ (halike.isWordStart_eq.trans hc), htake, hdrop]

theorem lex?_lowerFrom (before : List Char) {cs : List Char} {c : Char} {x : Lexed}
    (hx : lex? c cs = some x) (hdot : ∀ w, x.token = .word w → dottedI ∉ w.toList) :
    ∃ d ds t, lowerFrom before (c :: cs) = d :: ds ∧ Lowered before x.rest x.spelling x.token t ∧
      lex? d ds = some ⟨t, lowerBetween before x.rest x.spelling,
        lowerFrom (x.spelling.reverse ++ before) x.rest⟩ := by
  cases starts_of_lex? hx with
  | comma =>
    have hletter : isAlphabetic ',' = false := by decide +kernel
    refine ⟨',', _, .comma, lowerFrom_cons_of_not_alphabetic _ _ hletter,
      .other .comma (by simp) (by simp), ?_⟩
    rw [lowerBetween_of_not_alphabetic _ _ hletter]
    rfl
  | semicolon =>
    have hletter : isAlphabetic ';' = false := by decide +kernel
    refine ⟨';', _, .semicolon, lowerFrom_cons_of_not_alphabetic _ _ hletter,
      .other .semicolon (by simp) (by simp), ?_⟩
    rw [lowerBetween_of_not_alphabetic _ _ hletter]
    rfl
  | comparison cs hc =>
    obtain ⟨op, htoken, hspelling⟩ := lexComparison_spelling cs hc
    have hletter : isAlphabetic c = false := by
      rcases hc with rfl | rfl | rfl <;> decide +kernel
    have hsymbol : Inert op.symbol.toList := .of_all (by cases op <;> decide +kernel)
    refine ⟨c, _, .operator op, lowerFrom_cons_of_not_alphabetic _ _ hletter, ?_, ?_⟩
    · rw [htoken, hspelling]
      exact .other (.operator op) (by simp) (by simp)
    · rw [lex?_of_comparison _ hc, lexComparison_lowerFrom cs hc, htoken, hspelling,
        lowerBetween_eq_self _ _ fun d hd => (hsymbol d hd).2]
  | @literal _ body rest hquote hbody =>
    have hletter := not_isAlphabetic_of_isQuote hquote
    have hlowered : c ∉ lowerBetween (c :: before) (c :: rest) body := by
      intro hmem
      refine hbody (mem_of_mem_lowerBetween hmem hletter ?_)
      rintro rfl
      exact absurd hquote (by decide)
    refine ⟨c, _, _, lowerFrom_cons_of_not_alphabetic _ _ hletter, .literal hquote hbody, ?_⟩
    have hspan : lowerBetween before rest (c :: body ++ [c]) =
        c :: lowerBetween (c :: before) (c :: rest) body ++ [c] := by
      rw [lowerBetween_append, lowerBetween_of_not_alphabetic _ _ hletter, lowerBetween_cons,
        lowerBetween_of_not_alphabetic _ _ hletter]
      rfl
    rw [lex?_of_isQuote _ hquote, lowerFrom_append, lowerFrom_cons_of_not_alphabetic _ _ hletter,
      lexLiteral?_eq_some hlowered, hspan]
    simp
  | number cs hc =>
    have hsplit : ∀ d ∈ c :: (splitNumber cs).1, isAlphabetic d = false := by
      intro d hd
      rcases List.mem_cons.1 hd with rfl | hd
      · exact not_isAlphabetic_of_number (.inl hc)
      · exact not_isAlphabetic_of_number (mem_splitNumber hd)
    refine ⟨c, _, _, lowerFrom_cons_of_not_alphabetic _ _ (hsplit c (List.mem_cons_self ..)),
      .other (spelling_of_lex? hx) (by simp) (by simp), ?_⟩
    rw [lex?_of_isDigit _ hc, splitNumber_lowerFrom, lowerBetween_eq_self _ _ hsplit]
    simp
  | word cs hc =>
    have hspan : dottedI ∉ c :: cs.takeWhile isWordChar := by simpa using hdot _ rfl
    have hrun : ∀ d ∈ c :: cs.takeWhile isWordChar, isWordChar d = true := by
      intro d hd
      rcases List.mem_cons.1 hd with rfl | hd
      · exact isWordChar_of_isWordStart hc
      · exact List.mem_takeWhile_imp hd
    have hrest : ∀ d ∈ (cs.dropWhile isWordChar).head?, isWordChar d = false := by
      intro d hd
      have hstop := List.head?_dropWhile_not isWordChar cs
      rw [Option.mem_def.1 hd] at hstop
      exact hstop
    obtain ⟨d, more, hspelled, hlex⟩ := lex?_lowerBetween before hc hrun hspan hrest
    have hcut := lowerFrom_append before (c :: cs.takeWhile isWordChar) (cs.dropWhile isWordChar)
    rw [List.cons_append, List.takeWhile_append_dropWhile, hspelled, List.cons_append] at hcut
    refine ⟨d, _, _, hcut, .word _, ?_⟩
    rw [hspelled]
    exact hlex
  | other cs hquote hdigit hword =>
    have hletter : isAlphabetic c = false := by
      cases hletter : isAlphabetic c with
      | false => rfl
      | true => simp [isWordStart, hletter] at hword
    have hcomparison : ¬ (c = '=' ∨ c = '<' ∨ c = '>') := by
      intro hc
      obtain ⟨op, hop⟩ := lexComparison_token c cs
      rw [lex?_of_comparison cs hc] at hx
      rw [Option.some.inj hx] at hop
      cases hop
    refine ⟨c, _, _, lowerFrom_cons_of_not_alphabetic _ _ hletter,
      .other (spelling_of_lex? hx) (by simp) (by simp), ?_⟩
    rw [lowerBetween_of_not_alphabetic _ _ hletter]
    have hcomma : c ≠ ',' := by
      rintro rfl
      cases hx
    have hsemicolon : c ≠ ';' := by
      rintro rfl
      cases hx
    rw [lex?, if_neg hcomma, if_neg hsemicolon, if_neg hcomparison]
    simp [hquote, hdigit, hword]

theorem isBlank_lowerFrom {before cs ds : List Char} {c d : Char}
    (h : lowerFrom before (c :: cs) = d :: ds) : isBlank d = isBlank c := by
  rw [lowerFrom_cons] at h
  by_cases hc : c = dottedI
  · rw [hc, lowerBetween_dottedI] at h
    obtain ⟨rfl, -⟩ := List.cons.inj h
    rw [hc]
    decide
  · obtain ⟨e, he, halike⟩ := exists_lowerBetween_singleton before cs hc
    rw [he] at h
    obtain ⟨rfl, -⟩ := List.cons.inj h
    exact halike.isBlank_eq

inductive LoweredAt (offset offset' : Nat) (before text : List Char) :
    Located → Located → Prop where
  | mk {start span after : List Char} {t t' : Token} (htext : text = start ++ (span ++ after))
      (ht : Lowered (start.reverse ++ before) after span t t') :
      LoweredAt offset offset' before text ⟨offset + utf8Length start, t⟩
        ⟨offset' + utf8Length (lower start), t'⟩

theorem utf8Length_lower_append (xs ys : List Char) :
    utf8Length (lower (xs ++ ys)) = utf8Length (lower xs) + utf8Length (lower ys) := by
  simp only [utf8Length_lower, List.flatMap_append, utf8Length_append]

theorem LoweredAt.append {offset offset' : Nat} {before text : List Char} {l m : Located}
    (xs : List Char)
    (h : LoweredAt (offset + utf8Length xs) (offset' + utf8Length (lower xs))
      (xs.reverse ++ before) text l m) :
    LoweredAt offset offset' before (xs ++ text) l m := by
  obtain ⟨htext, ht⟩ := h
  rename_i start span after t t'
  have hall : LoweredAt offset offset' before (xs ++ text) ⟨offset + utf8Length (xs ++ start), t⟩
      ⟨offset' + utf8Length (lower (xs ++ start)), t'⟩ :=
    .mk (by rw [htext, List.append_assoc]) (by simpa using ht)
  rwa [utf8Length_append, utf8Length_lower_append, ← Nat.add_assoc, ← Nat.add_assoc] at hall

def Undotted (ts : List Token) : Prop := ∀ w, .word w ∈ ts → dottedI ∉ w.toList

theorem tokenizeFrom_lowerFrom {offset : Nat} {cs : List Char} {ls : List Located}
    (h : tokenizeFrom offset cs = .ok ls) (hdot : Undotted (ls.map Located.token))
    (before : List Char) (offset' : Nat) :
    ∃ ms, tokenizeFrom offset' (lowerFrom before cs) = .ok ms ∧
      List.Forall₂ (LoweredAt offset offset' before cs) ls ms := by
  -- The rest is lower-cased behind a longer text and may begin at another byte, so both are free.
  fun_induction tokenizeFrom offset cs generalizing ls before offset' with
  | case1 =>
    cases h
    exact ⟨[], by rw [lowerFrom, tokenizeFrom], .nil⟩
  | case2 offset c cs hc ih =>
    have hletter := not_isAlphabetic_of_isBlank hc
    have hlower : lower [c] = [c] := lowerFrom_cons_of_not_alphabetic [] [] hletter
    obtain ⟨ms, hms, hall⟩ := ih h hdot (c :: before) (offset' + c.utf8Size)
    refine ⟨ms, ?_, hall.imp fun l m hlm => ?_⟩
    · rw [lowerFrom_cons_of_not_alphabetic _ _ hletter, tokenizeFrom, if_pos hc, hms]
    · refine LoweredAt.append [c] ?_
      rw [hlower]
      exact hlm
  | case3 => cases h
  | case4 offset c cs hc x hx later hlater ih =>
    cases h
    obtain ⟨d, ds, t, hcons, ht, hlex⟩ := lex?_lowerFrom before hx fun w hw => hdot w (by simp [hw])
    have hblank : isBlank d = false := (isBlank_lowerFrom hcons).trans (by simpa using hc)
    obtain ⟨ms, hms, hall⟩ := ih hlater (fun w hw => hdot w (List.mem_cons_of_mem _ hw))
      (x.spelling.reverse ++ before) (offset' + utf8Length (lowerBetween before x.rest x.spelling))
    refine ⟨⟨offset', t⟩ :: ms, ?_, .cons ?_ (hall.imp fun l m hlm => ?_)⟩
    · rw [hcons, tokenizeFrom_token hblank hlex, hms]
      rfl
    · exact @LoweredAt.mk offset offset' before _ [] _ _ _ _ (lex?_append hx).symm ht
    · rw [utf8Length_lowerBetween, ← utf8Length_lower] at hlm
      rw [← lex?_append hx]
      exact .append _ hlm
  | case5 => cases h

theorem exists_tokenizeFrom_of_not_isQuote {cs : List Char} (offset : Nat)
    (h : ∀ c ∈ cs, isQuote c = false) : ∃ ls, tokenizeFrom offset cs = .ok ls := by
  cases hls : tokenizeFrom offset cs with
  | ok ls => exact ⟨ls, rfl⟩
  | error n =>
    obtain ⟨before, quote, after, ts, rfl, -, -, hquote, -⟩ := lexes_of_tokenizeFrom_error hls
    rw [h quote (by simp)] at hquote
    cases hquote

theorem tokenizeFrom_append_quote {offset : Nat} {cs : List Char} {ls : List Located}
    (h : tokenizeFrom offset cs = .ok ls) {quote : Char} (after : List Char)
    (hquote : isQuote quote = true) :
    tokenizeFrom offset (cs ++ quote :: after) =
      (tokenizeFrom (offset + utf8Length cs) (quote :: after)).map (ls ++ ·) := by
  fun_induction tokenizeFrom offset cs generalizing ls with
  | case1 offset =>
    cases h
    cases hafter : tokenizeFrom offset (quote :: after) <;> simp [utf8Length, hafter, Except.map]
  | case2 offset c cs hc ih =>
    rw [List.cons_append, tokenizeFrom, if_pos hc, ih h, utf8Length, Nat.add_assoc]
  | case3 => cases h
  | case4 offset c cs hc x hx later hlater ih =>
    cases h
    have hlex : lex? c (cs ++ quote :: after) =
        some ⟨x.token, x.spelling, x.rest ++ quote :: after⟩ :=
      (lex?_append_quote_iff hquote).2 hx
    have hlength : utf8Length (c :: cs) = utf8Length x.spelling + utf8Length x.rest := by
      rw [← lex?_append hx, utf8Length_append]
    rw [List.cons_append, tokenizeFrom_token (by simpa using hc) hlex, ih hlater, hlength,
      ← Nat.add_assoc]
    cases tokenizeFrom (offset + utf8Length x.spelling + utf8Length x.rest) (quote :: after) <;> rfl
  | case5 => cases h

theorem tokenize_around_literal {before body : List Char} {quote : Char} {pre : List Located}
    (rest : List Char) (hpre : tokenize before = .ok pre) (hquote : isQuote quote = true)
    (hbody : quote ∉ body) :
    tokenize (before ++ quote :: (body ++ quote :: rest)) =
      (tokenizeFrom (utf8Length (before ++ quote :: (body ++ [quote]))) rest).map
        (pre ++ ⟨utf8Length before, .literal (.ofList body)⟩ :: ·) := by
  have hlex := lex?_of_isQuote (body ++ quote :: rest) hquote
  rw [lexLiteral?_eq_some hbody] at hlex
  have hlength : utf8Length before + utf8Length (quote :: body ++ [quote]) =
      utf8Length (before ++ quote :: (body ++ [quote])) := (utf8Length_append ..).symm
  rw [tokenize, tokenizeFrom_append_quote hpre _ hquote,
    tokenizeFrom_token (not_isBlank_of_isQuote hquote) hlex, Nat.zero_add, hlength]
  cases tokenizeFrom (utf8Length (before ++ quote :: (body ++ [quote]))) rest <;> rfl

/-- The text has a stretch that folding lower-cases as a whole: all of it, or what is before or
behind its first literal. What stands before the stretch is given with its folded form. -/
inductive Stretch : List Char → List Char → List Char → List Char → Prop where
  | all {text : List Char} (htext : ∀ c ∈ text, isQuote c = false) : Stretch text [] [] text
  | before {before body rest : List Char} {quote : Char} (hbefore : ∀ c ∈ before, isQuote c = false)
      (hquote : isQuote quote = true) (hbody : quote ∉ body) :
      Stretch (before ++ quote :: (body ++ quote :: rest)) [] [] before
  | behind {before body rest : List Char} {quote : Char} (hbefore : ∀ c ∈ before, isQuote c = false)
      (hquote : isQuote quote = true) (hbody : quote ∉ body) :
      Stretch (before ++ quote :: (body ++ quote :: rest)) (before ++ quote :: (body ++ [quote]))
        (lower before ++ quote :: (body ++ [quote])) rest

theorem Stretch.exists_append {text start start' stretch : List Char}
    (h : Stretch text start start' stretch) : ∃ rest, text = start ++ (stretch ++ rest) := by
  cases h with
  | all => exact ⟨[], by simp⟩
  | before => exact ⟨_, rfl⟩
  | behind => exact ⟨[], by simp⟩

/-- A token of the text and the token that its folded form has for it. The first literal is kept,
and every other token stands in a stretch that is lower-cased. -/
inductive FoldsAt (text : List Char) : Located → Located → Prop where
  | lowered {start start' stretch : List Char} {l m : Located}
      (hstretch : Stretch text start start' stretch)
      (h : LoweredAt (utf8Length start) (utf8Length start') [] stretch l m) : FoldsAt text l m
  | kept {before body rest : List Char} {quote : Char}
      (htext : text = before ++ quote :: (body ++ quote :: rest))
      (hbefore : ∀ c ∈ before, isQuote c = false) (hquote : isQuote quote = true)
      (hbody : quote ∉ body) :
      FoldsAt text ⟨utf8Length before, .literal (.ofList body)⟩
        ⟨utf8Length (lower before), .literal (.ofList body)⟩

theorem FoldsAt.word_placed {text : List Char} {l m : Located} {w : String}
    (h : FoldsAt text l m) (hw : l.token = .word w) :
    ∃ start rest, text = start ++ (w.toList ++ rest) ∧ l.offset = utf8Length start ∧
      ((∀ c ∈ w.toList, c ≠ 'Σ') ∨ EndsCase start.reverse ∧ EndsCase rest →
        m.token = .word (.ofList (lower w.toList))) := by
  cases h with
  | @lowered start _ _ _ _ hstretch h =>
    obtain ⟨tail, rfl⟩ := hstretch.exists_append
    obtain ⟨hcut, ht⟩ := h
    rename_i cs span after t t'
    obtain rfl : t = .word w := hw
    have hspan : span = w.toList := by
      have hspelling := ht.spelling
      cases hspelling
      rfl
    refine ⟨start ++ cs, after ++ tail, ?_, (utf8Length_append _ _).symm, fun hstable => ?_⟩
    · simp [hcut, hspan]
    · refine ht.eq_lower (hstable.imp_right fun hends => ?_)
      rw [List.reverse_append] at hends
      rw [List.append_nil]
      exact ⟨hends.1.of_append, hends.2.of_append⟩
  | kept => cases hw

theorem undotted_append {ts us : List Token} :
    Undotted (ts ++ us) ↔ Undotted ts ∧ Undotted us := by
  simp [Undotted, or_imp, forall_and]

theorem forall₂_foldsAt {text folded : List Char} {ls : List Located}
    (hls : tokenize text = .ok ls) (hfold : foldCase text = .ok folded)
    (hdot : Undotted (ls.map Located.token)) :
    ∃ ms, tokenize folded = .ok ms ∧ List.Forall₂ (FoldsAt text) ls ms := by
  rcases foldCase_eq_ok_iff.1 hfold with
    ⟨htext, rfl⟩ | ⟨before, quote, body, rest, rfl, hbefore, hquote, hbody, rfl⟩
  · obtain ⟨ms, hms, hall⟩ := tokenizeFrom_lowerFrom hls hdot [] 0
    exact ⟨ms, hms, hall.imp fun l m => .lowered (.all htext)⟩
  · obtain ⟨pre, hpre⟩ := exists_tokenizeFrom_of_not_isQuote 0 hbefore
    rw [tokenize_around_literal rest hpre hquote hbody] at hls
    obtain ⟨post, hpost, rfl⟩ := map_eq_ok_iff.1 hls
    rw [List.map_append, undotted_append] at hdot
    obtain ⟨ms, hms, hall⟩ := tokenizeFrom_lowerFrom hpre hdot.1 [] 0
    obtain ⟨ns, hns, hall'⟩ := tokenizeFrom_lowerFrom hpost
      (fun w hw => hdot.2 w (List.mem_cons_of_mem _ hw)) []
      (utf8Length (lower before ++ quote :: (body ++ [quote])))
    refine ⟨ms ++ ⟨utf8Length (lower before), .literal (.ofList body)⟩ :: ns, ?_, ?_⟩
    · exact (tokenize_around_literal (lower rest) hms hquote hbody).trans
        (map_eq_ok_iff.2 ⟨ns, hns, rfl⟩)
    · refine List.rel_append (hall.imp fun l m => .lowered (.before hbefore hquote hbody)) ?_
      exact .cons (.kept rfl hbefore hquote hbody)
        (hall'.imp fun l m => .lowered (.behind hbefore hquote hbody))

theorem filter_isQuote_lowerBetween (before after cs : List Char) :
    (lowerBetween before after cs).filter isQuote = cs.filter isQuote := by
  induction cs generalizing before with
  | nil => rfl
  | cons c cs ih =>
    rw [lowerBetween_cons, List.filter_append, ih]
    by_cases hc : c = dottedI
    · rw [hc, lowerBetween_dottedI]
      rfl
    · have hletters : ∀ e, isAlphabetic e = true → isQuote e = false := fun e he =>
        not_isQuote_of_isWordChar (by simp [isWordChar, he])
      obtain ⟨d, hd, rfl | ⟨hletter, hletter'⟩⟩ :=
        exists_lowerBetween_singleton before (cs ++ after) hc
      · rw [hd, ← List.filter_append, List.singleton_append]
      · simp [hd, hletters c hletter, hletters d hletter']

theorem filter_isQuote_lower (cs : List Char) : (lower cs).filter isQuote = cs.filter isQuote := by
  rw [lower, ← lowerBetween_nil, filter_isQuote_lowerBetween]

theorem filter_isQuote_foldCase {text folded : List Char} (h : foldCase text = .ok folded) :
    folded.filter isQuote = text.filter isQuote := by
  rcases foldCase_eq_ok_iff.1 h with ⟨-, rfl⟩ | ⟨before, quote, body, rest, rfl, -, -, -, rfl⟩
  · exact filter_isQuote_lower text
  · simp only [List.filter_append, List.filter_cons, filter_isQuote_lower]

theorem exists_tokenize_of_filter_eq {cs ds : List Char} (h : ds.filter isQuote = cs.filter isQuote)
    (hcs : ∃ ls, tokenize cs = .ok ls) : ∃ ms, tokenize ds = .ok ms := by
  induction hn : cs.length + ds.length using Nat.strong_induction_on generalizing cs ds with
  | _ n ih =>
    cases hds : tokenize ds with
    | ok ms => exact ⟨ms, rfl⟩
    | error o =>
      obtain ⟨before, quote, after, rfl, -, hbefore, hquote, hafter⟩ := tokenize_eq_error_iff.1 hds
      rw [List.filter_append, List.filter_cons_of_pos hquote] at h
      obtain ⟨before', rest', rfl, hbefore', hrest'⟩ := List.filter_eq_append_iff.1 h.symm
      obtain ⟨xs, after', rfl, hxs, -, hafter'⟩ := List.filter_eq_cons_iff.1 hrest'
      have hsame : (before' ++ xs).filter isQuote = before.filter isQuote := by
        rw [List.filter_append, hbefore', List.filter_eq_nil_iff.2 hxs, List.append_nil]
      -- The texts in front of the quote have the same quotes again, so the other one splits as well.
      have hstart := ih _ (by simp at hn ⊢; omega) hsame hbefore rfl
      have hopen : quote ∉ after' := by
        intro hmem
        have hquotes := List.mem_filter.2 ⟨hmem, hquote⟩
        rw [hafter'] at hquotes
        exact hafter (List.mem_filter.1 hquotes).1
      obtain ⟨ls, hls⟩ := hcs
      have herror : tokenize (before' ++ (xs ++ quote :: after')) =
          .error (utf8Length (before' ++ xs)) :=
        tokenize_eq_error_iff.2 ⟨_, quote, after', by simp, rfl, hstart, hquote, hopen⟩
      rw [herror] at hls
      cases hls

theorem NoLiteral.find?_eq_none {ts : List Token} (h : NoLiteral ts) :
    ts.find? isLiteral = none :=
  List.find?_eq_none.2 fun t ht => by simp [h t ht]

theorem Lexes.find?_isLiteral {before body rest : List Char} {quote : Char} {ts : List Token}
    (h : Lexes (before ++ quote :: (body ++ quote :: rest)) ts [])
    (hbefore : ∀ c ∈ before, isQuote c = false) (hquote : isQuote quote = true)
    (hbody : quote ∉ body) : ts.find? isLiteral = some (.literal (.ofList body)) := by
  obtain ⟨us, x, vs, rfl, hus, hx, -⟩ := h.quote_split hbefore hquote
  rw [lexLiteral?_eq_some hbody] at hx
  cases hx
  rw [List.find?_append, hus.find?_eq_none]
  rfl

theorem find?_isLiteral_foldCase {text folded : List Char} {ls ms : List Located}
    (hls : tokenize text = .ok ls) (hfold : foldCase text = .ok folded)
    (hms : tokenize folded = .ok ms) :
    (ms.map Located.token).find? isLiteral = (ls.map Located.token).find? isLiteral := by
  have htext := lexes_of_tokenizeFrom hls
  have hfolded := lexes_of_tokenizeFrom hms
  rcases foldCase_eq_ok_iff.1 hfold with
    ⟨hnone, rfl⟩ | ⟨before, quote, body, rest, rfl, hbefore, hquote, hbody, rfl⟩
  · rw [(htext.noLiteral hnone).find?_eq_none,
      (hfolded.noLiteral (not_isQuote_of_lower hnone)).find?_eq_none]
  · rw [htext.find?_isLiteral hbefore hquote hbody,
      hfolded.find?_isLiteral (not_isQuote_of_lower hbefore) hquote hbody]

theorem exists_of_forall₂ {α β : Type} {R : α → β → Prop} {xs : List α} {ys : List β} {x : α}
    (h : List.Forall₂ R xs ys) (hx : x ∈ xs) : ∃ y ∈ ys, R x y := by
  induction h with
  | nil => cases hx
  | cons hxy _ ih =>
    rcases List.mem_cons.1 hx with rfl | hx
    · exact ⟨_, List.mem_cons_self .., hxy⟩
    · obtain ⟨y, hy, hxy⟩ := ih hx
      exact ⟨y, List.mem_cons_of_mem _ hy, hxy⟩

theorem undotted_of_foldsAt {text folded : List Char} {ls ms : List Located}
    (hms : tokenize folded = .ok ms) (hall : List.Forall₂ (FoldsAt text) ls ms) :
    Undotted (ls.map Located.token) := by
  intro w hw hdot
  obtain ⟨l, hl, hlw⟩ := List.mem_map.1 hw
  obtain ⟨m, hm, hlm⟩ := exists_of_forall₂ hall hl
  cases hlm with
  | lowered _ h =>
    obtain ⟨-, ht⟩ := h
    cases ht with
    | word span =>
      cases hlw
      have hchars := ((lexes_of_tokenizeFrom hms).word_of_mem (List.mem_map_of_mem hm)).2
      rw [String.toList_ofList] at hchars hdot
      exact absurd (hchars _ (mem_lowerBetween_of_dottedI hdot)) (by decide +kernel)
    | literal => cases hlw
    | other _ hword => exact hword w hlw
  | kept => cases hlw

/-- The folded text of a text can be split if the text can, and it has the same first literal. It
has the tokens of the text one by one, words in lower case, exactly if no word has a dotted I. A
word becomes its own lower case unless a sigma in it has its form from what is around the word. -/
theorem tokenize_foldCase {text folded : List Char} {ls : List Located}
    (hls : tokenize text = .ok ls) (hfold : foldCase text = .ok folded) :
    ∃ ms, tokenize folded = .ok ms ∧
      (ms.map Located.token).find? isLiteral = (ls.map Located.token).find? isLiteral ∧
      (List.Forall₂ (FoldsAt text) ls ms ↔ Undotted (ls.map Located.token)) ∧
      ∀ l m w, FoldsAt text l m → l.token = .word w →
        ∃ start rest, text = start ++ (w.toList ++ rest) ∧ l.offset = utf8Length start ∧
          ((∀ c ∈ w.toList, c ≠ 'Σ') ∨ EndsCase start.reverse ∧ EndsCase rest →
            m.token = .word (.ofList (lower w.toList))) := by
  obtain ⟨ms, hms⟩ := exists_tokenize_of_filter_eq (filter_isQuote_foldCase hfold) ⟨ls, hls⟩
  refine ⟨ms, hms, find?_isLiteral_foldCase hls hfold hms,
    ⟨undotted_of_foldsAt hms, fun hdot => ?_⟩, fun l m w => FoldsAt.word_placed⟩
  obtain ⟨ms', hms', hall⟩ := forall₂_foldsAt hls hfold hdot
  rw [hms] at hms'
  cases hms'
  exact hall

theorem tokenize_foldCase_sigma :
    tokenize "ΑΣ 1,5 'É' ΑΣ:Β \"É\"".toList =
      .ok [⟨0, .word "ΑΣ"⟩, ⟨5, .number "1,5"⟩, ⟨9, .literal "É"⟩, ⟨14, .word "ΑΣ"⟩,
        ⟨18, .other ':'⟩, ⟨19, .word "Β"⟩, ⟨22, .literal "É"⟩] ∧
    foldCase "ΑΣ 1,5 'É' ΑΣ:Β \"É\"".toList = .ok "ας 1,5 'É' ασ:β \"é\"".toList ∧
    ∃ ms, tokenize "ας 1,5 'É' ασ:β \"é\"".toList = .ok ms ∧
      (ms.map Located.token).find? isLiteral = some (.literal "É") ∧
      List.Forall₂ (FoldsAt "ΑΣ 1,5 'É' ΑΣ:Β \"É\"".toList)
        [⟨0, .word "ΑΣ"⟩, ⟨5, .number "1,5"⟩, ⟨9, .literal "É"⟩, ⟨14, .word "ΑΣ"⟩,
          ⟨18, .other ':'⟩, ⟨19, .word "Β"⟩, ⟨22, .literal "É"⟩] ms := by
  have hls : tokenize "ΑΣ 1,5 'É' ΑΣ:Β \"É\"".toList =
      .ok [⟨0, .word "ΑΣ"⟩, ⟨5, .number "1,5"⟩, ⟨9, .literal "É"⟩, ⟨14, .word "ΑΣ"⟩,
        ⟨18, .other ':'⟩, ⟨19, .word "Β"⟩, ⟨22, .literal "É"⟩] :=
    tokenize_of_tokensWithin (by decide +kernel)
  have hfold : foldCase "ΑΣ 1,5 'É' ΑΣ:Β \"É\"".toList = .ok "ας 1,5 'É' ασ:β \"é\"".toList :=
    eq_ok_of_toOption (by decide +kernel)
  obtain ⟨ms, hms, hfirst, hall, -⟩ := tokenize_foldCase hls hfold
  exact ⟨hls, hfold, ms, hms, hfirst, hall.2 (by simp [Undotted]; decide)⟩

/-- The dot of a capital I is a token of its own, and a sigma before a colon and a letter does not
end its word. -/
theorem not_forall_tokenize_foldCase :
    (¬ ∀ text folded ls ms, tokenize text = .ok ls → foldCase text = .ok folded →
      tokenize folded = .ok ms → ms.length = ls.length) ∧
    ¬ ∀ text folded ls ms, tokenize text = .ok ls → foldCase text = .ok folded →
      tokenize folded = .ok ms → Undotted (ls.map Located.token) →
      List.Forall₂ (fun l m => ∀ w, l.token = .word w → m.token = .word (.ofList (lower w.toList)))
        ls ms := by
  constructor
  · intro h
    have hls : tokenize "İ".toList = .ok [⟨0, .word "İ"⟩] :=
      tokenize_of_tokensWithin (by decide +kernel)
    have hms : tokenize "i\u0307".toList = .ok [⟨0, .word "i"⟩, ⟨1, .other '\u0307'⟩] :=
      tokenize_of_tokensWithin (by decide +kernel)
    have hlength := h _ _ _ _ hls (eq_ok_of_toOption (by decide +kernel)) hms
    cases hlength
  · intro h
    have hls : tokenize "ΑΣ:Β".toList = .ok [⟨0, .word "ΑΣ"⟩, ⟨4, .other ':'⟩, ⟨5, .word "Β"⟩] :=
      tokenize_of_tokensWithin (by decide +kernel)
    have hms : tokenize "ασ:β".toList = .ok [⟨0, .word "ασ"⟩, ⟨4, .other ':'⟩, ⟨5, .word "β"⟩] :=
      tokenize_of_tokensWithin (by decide +kernel)
    have hall := h _ _ _ _ hls (eq_ok_of_toOption (by decide +kernel)) hms
      (by simp [Undotted]; decide)
    cases hall with
    | cons hword _ => exact absurd (hword "ΑΣ" rfl) (by decide +kernel)

end RowSelect.Query
