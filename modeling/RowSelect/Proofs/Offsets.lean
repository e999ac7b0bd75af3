import RowSelect.Proofs.CaseStability
import RowSelect.Proofs.FoldedTokens

/-!
The bytes that faults of a query name. A query is trimmed and folded before it is split, and bytes
are counted in what comes of that; so a byte is one of the query itself if there is nothing to trim
at its front and its characters are as long in lower case.
-/

set_option autoImplicit false

namespace RowSelect.Query

open RowSelect.Text

def SyntaxFault.offset? : SyntaxFault → Option Nat
  | unexpected _ n | openQuote n => some n
  | _ => none

def NamesNoByte {α : Type} (x : Except SyntaxFault α) : Prop := ∀ e, x = .error e → e.offset? = none

namespace NamesNoByte

variable {α β : Type}

theorem bind {x : Except SyntaxFault α} {f : α → Except SyntaxFault β} (hx : NamesNoByte x)
    (hf : ∀ a, NamesNoByte (f a)) : NamesNoByte (x >>= f) := by
  intro e he
  rcases bind_eq_error.1 he with hxe | ⟨a, -, hfe⟩
  · exact hx e hxe
  · exact hf a e hfe

theorem ok (a : α) : NamesNoByte (.ok a) := nofun

theorem error {e : SyntaxFault} (h : e.offset? = none) :
    NamesNoByte (.error e : Except SyntaxFault α) := by
  intro e' he
  cases he
  exact h

theorem readNumber (s : String) : NamesNoByte (Query.readNumber s) := by
  unfold Query.readNumber
  split
  · exact ok _
  · exact error rfl

theorem checkConditionLength (text : List Char) :
    NamesNoByte (Query.checkConditionLength text) := by
  unfold Query.checkConditionLength
  split
  · exact error rfl
  · exact ok _

theorem readList (what : Expected) (ls : List Located) : NamesNoByte (Query.readList what ls) := by
  fun_induction Query.readList what ls with
  | case1 => exact error rfl
  | case2 => exact error rfl
  | case3 => exact ok _
  | case4 offset w hw comma more e he ih => exact error (ih e he)
  | case5 => exact ok _
  | case6 => exact error rfl

theorem readLeft (ls : List Located) : NamesNoByte (Query.readLeft ls) := by
  unfold Query.readLeft
  split
  · exact error rfl
  · split
    · exact ok _
    · exact error rfl
  · exact error rfl
  · exact error rfl

theorem readOperator (ls : List Located) : NamesNoByte (Query.readOperator ls) := by
  unfold Query.readOperator
  split
  · exact ok _
  · exact error rfl

theorem readRight (ls : List Located) : NamesNoByte (Query.readRight ls) := by
  unfold Query.readRight
  split
  · exact error rfl
  · exact ok _
  · next s rest =>
    split
    · exact ok _
    · next e he => exact error (readNumber s e he)
  · split
    · exact ok _
    · exact error rfl
  · exact error rfl

theorem readComparison (ls : List Located) : NamesNoByte (Query.readComparison ls) :=
  (readLeft ls).bind fun _ => (readOperator _).bind fun _ => (readRight _).bind fun _ => ok _

theorem readSelect (ls : List Located) : NamesNoByte (Query.readSelect ls) := by
  unfold Query.readSelect
  split
  · exact ok _
  · exact error rfl

theorem readFrom (ls : List Located) : NamesNoByte (Query.readFrom ls) := by
  unfold Query.readFrom
  split
  · exact ok _
  · exact error rfl

theorem readWhere (text : List Char) (ls : List Located) :
    NamesNoByte (Query.readWhere text ls) := by
  unfold Query.readWhere
  split
  · exact (checkConditionLength _).bind fun _ => (readComparison _).bind fun _ => ok _
  · exact ok _

end NamesNoByte

theorem readEnd_eq_error {ls : List Located} {e : SyntaxFault} (h : readEnd ls = .error e) :
    ∃ l ∈ ls, e = .unexpected l.token l.offset := by
  unfold readEnd at h
  dsimp only at h
  split at h
  · cases h
  · next l rest hrest =>
    cases h
    refine ⟨l, ?_, rfl⟩
    split at hrest
    · rw [hrest]
      simp
    · rw [hrest]
      simp

theorem readTokens_eq_error_iff {text : List Char} {e : SyntaxFault} :
    readTokens text = .error e ↔ ∃ n, tokenize text = .error n ∧ e = .openQuote n := by
  unfold readTokens
  cases tokenize text <;> simp [eq_comm]

theorem readStatement_eq_error {text : List Char} {e : SyntaxFault} {n : Nat}
    (h : readStatement text = .error e) (hn : e.offset? = some n) :
    (e = .openQuote n ∧ tokenize text = .error n) ∨
    ∃ t ls, e = .unexpected t n ∧ tokenize text = .ok ls ∧ ⟨n, t⟩ ∈ ls := by
  have hnone : ∀ {α : Type} {x : Except SyntaxFault α}, NamesNoByte x → x ≠ .error e := by
    intro α x hx he
    rw [hx e he] at hn
    cases hn
  unfold readStatement at h
  rcases bind_eq_error.1 h with htokens | ⟨ls, htokens, h⟩
  · left
    obtain ⟨o, ho, rfl⟩ := readTokens_eq_error_iff.1 htokens
    cases hn
    exact ⟨rfl, ho⟩
  · rw [readTokens_eq_ok_iff] at htokens
    right
    obtain ⟨ls₁, hselect, h⟩ := (bind_eq_error.1 h).resolve_left (hnone (.readSelect _))
    obtain ⟨⟨columns, ls₂⟩, hcolumns, h⟩ := (bind_eq_error.1 h).resolve_left (hnone (.readList _ _))
    obtain ⟨ls₃, hfrom, h⟩ := (bind_eq_error.1 h).resolve_left (hnone (.readFrom _))
    obtain ⟨⟨tables, ls₄⟩, htables, h⟩ := (bind_eq_error.1 h).resolve_left (hnone (.readList _ _))
    obtain ⟨⟨condition, ls₅⟩, hwhere, h⟩ :=
      (bind_eq_error.1 h).resolve_left (hnone (.readWhere _ _))
    obtain ⟨⟨offset, t⟩, hmem, rfl⟩ := readEnd_eq_error
      ((bind_eq_error.1 h).resolve_right fun ⟨_, _, hpure⟩ => by cases hpure)
    obtain ⟨i, rfl⟩ := readSelect_eq_ok_iff.1 hselect
    obtain ⟨cs, rfl, -⟩ := readList_sound hcolumns
    obtain ⟨j, rfl⟩ := readFrom_eq_ok_iff.1 hfrom
    obtain ⟨ts, rfl, -⟩ := readList_sound htables
    obtain ⟨us, rfl, -⟩ := readWhere_sound hwhere
    cases hn
    exact ⟨t, _, rfl, htokens, by simp [hmem]⟩

def KeepsLength (cs : List Char) : Prop := ∀ c ∈ cs, utf8Length (lowerChar c) = c.utf8Size

theorem KeepsLength.of_all {cs : List Char}
    (h : (cs.all fun c => utf8Length (lowerChar c) == c.utf8Size) = true) : KeepsLength cs :=
  fun c hc => by simpa using List.all_eq_true.1 h c hc

def FoldsToLength (start : List Char) (n : Nat) : Prop :=
  ∃ folded, foldCase start = .ok folded ∧ n = utf8Length folded

theorem FoldsToLength.eq_utf8Length {start : List Char} {n : Nat} (h : FoldsToLength start n)
    (hkeep : KeepsLength start) : n = utf8Length start := by
  have hlower : ∀ cs ⊆ start, utf8Length (lower cs) = utf8Length cs := fun cs hcs => by
    rw [utf8Length_lower, utf8Length_flatMap_lowerChar fun c hc => hkeep c (hcs hc)]
  obtain ⟨folded, hfold, rfl⟩ := h
  rcases foldCase_eq_ok_iff.1 hfold with ⟨-, rfl⟩ | ⟨before, quote, body, rest, rfl, -, -, -, rfl⟩
  · exact hlower start (List.Subset.refl _)
  · have hbefore := hlower before (by simp)
    have hrest := hlower rest (by intro c hc; simp [hc])
    simp only [utf8Length_append, utf8Length, hbefore, hrest]

theorem foldCase_eq_error_iff {text : List Char} {n : Nat} :
    foldCase text = .error n ↔
      ∃ before quote after, text = before ++ quote :: after ∧ n = utf8Length before ∧
        (∀ c ∈ before, isQuote c = false) ∧ isQuote quote = true ∧ quote ∉ after := by
  constructor
  · intro h
    unfold foldCase at h
    dsimp only at h
    cases hdrop : text.dropWhile (!isQuote ·) with
    | nil =>
      rw [hdrop] at h
      cases h
    | cons quote after =>
      obtain ⟨hcut, hbefore, hquote⟩ := cut_of_dropWhile hdrop
      rw [hdrop] at h
      dsimp only at h
      split at h
      · next hnone =>
        cases h
        exact ⟨_, quote, after, hcut, rfl, fun c hc => by simpa using hbefore c hc,
          by simpa using hquote, lexLiteral?_eq_none_iff.1 hnone⟩
      · cases h
  · intro h
    obtain ⟨before, quote, after, rfl, rfl, hbefore, hquote, hafter⟩ := h
    exact foldCase_of_unclosed hbefore hquote hafter

theorem Stretch.foldsToLength {text start start' stretch : List Char}
    (h : Stretch text start start' stretch) {cs rest : List Char} (hcs : stretch = cs ++ rest) :
    FoldsToLength (start ++ cs) (utf8Length start' + utf8Length (lower cs)) := by
  refine ⟨start' ++ lower cs, ?_, (utf8Length_append _ _).symm⟩
  rw [foldCase_eq_ok_iff]
  cases h with
  | all htext => exact .inl ⟨fun c hc => htext c (hcs ▸ List.mem_append_left rest hc), rfl⟩
  | before hbefore => exact .inl ⟨fun c hc => hbefore c (hcs ▸ List.mem_append_left rest hc), rfl⟩
  | @behind before body _ quote hbefore hquote hbody =>
    exact .inr ⟨before, quote, body, cs, by simp, hbefore, hquote, hbody, by simp⟩

theorem FoldsAt.placed {text : List Char} {l m : Located} (h : FoldsAt text l m) :
    ∃ start span rest, text = start ++ (span ++ rest) ∧ Spelling l.token span ∧
      l.offset = utf8Length start ∧ FoldsToLength start m.offset := by
  cases h with
  | @lowered start start' stretch _ _ hstretch h =>
    obtain ⟨tail, rfl⟩ := hstretch.exists_append
    obtain ⟨hcut, ht⟩ := h
    rename_i cs span after t t'
    refine ⟨start ++ cs, span, after ++ tail, ?_, ht.spelling, (utf8Length_append _ _).symm, ?_⟩
    · simp [hcut]
    · exact hstretch.foldsToLength hcut
  | @kept before body rest quote htext hbefore hquote hbody =>
    refine ⟨before, quote :: body ++ [quote], rest, by simp [htext], ?_, rfl, lower before, ?_, rfl⟩
    · exact .literal_ofList hquote hbody
    · exact foldCase_eq_ok_iff.2 (.inl ⟨hbefore, rfl⟩)

/-- The token `t` at byte `n` of the folded text begins with what becomes of the character behind
`start`. The dot of a capital I is the only token that begins within what becomes of a character. -/
def BeginsAt (start : List Char) (c : Char) (t : Token) (n : Nat) : Prop :=
  FoldsToLength start n ∨
    c = dottedI ∧ t = .other '\u0307' ∧ ∃ k, n = k + 1 ∧ FoldsToLength start k

theorem lex?_dot (cs : List Char) : lex? '\u0307' cs = some ⟨.other '\u0307', ['\u0307'], cs⟩ := by
  have hword : isWordStart '\u0307' = false := by decide +kernel
  have hquote : isQuote '\u0307' = false := by decide
  simp [lex?, hword, hquote]

theorem head_of_lowerBetween {before after head tail : List Char} {c d : Char}
    (h : lowerBetween before after [c] = head ++ d :: tail) :
    head = [] ∨ c = dottedI ∧ d = '\u0307' ∧ utf8Length head = 1 := by
  by_cases hc : c = dottedI
  · rw [hc, lowerBetween_dottedI] at h
    cases head with
    | nil => exact .inl rfl
    | cons i head =>
      obtain ⟨rfl, hrest⟩ := List.cons.inj h
      cases head with
      | nil =>
        obtain ⟨rfl, -⟩ := List.cons.inj hrest
        exact .inr ⟨hc, rfl, by decide⟩
      | cons e head => simp at hrest
  · obtain ⟨e, he, -⟩ := exists_lowerBetween_singleton before after hc
    rw [he] at h
    cases head with
    | nil => exact .inl rfl
    | cons e head => simp at h

theorem Stretch.beginsAt {text start start' stretch : List Char}
    (h : Stretch text start start' stretch) {ms : List Located} {m : Located}
    (hms : tokenizeFrom (utf8Length start') (lower stretch) = .ok ms) (hm : m ∈ ms) :
    ∃ place c rest, text = place ++ c :: rest ∧ BeginsAt place c m.token m.offset := by
  obtain ⟨pre, post, rfl⟩ := List.append_of_mem hm
  obtain ⟨ds, d, more, x, hcut, hoffset, hx, htoken, -⟩ := split_of_tokenizeFrom hms
  obtain ⟨cs, c, rest, head, tail, rfl, hchar, rfl, rfl⟩ := exists_of_lowerFrom_eq hcut
  obtain ⟨behind, rfl⟩ := h.exists_append
  have hplace := h.foldsToLength rfl
  refine ⟨start ++ cs, c, rest ++ behind, by simp, ?_⟩
  rw [utf8Length_append, utf8Length_lowerBetween, ← utf8Length_lower] at hoffset
  rcases head_of_lowerBetween hchar with rfl | ⟨rfl, rfl, hhead⟩
  · left
    rw [hoffset]
    simpa [utf8Length] using hplace
  · right
    rw [lex?_dot] at hx
    cases hx
    refine ⟨rfl, htoken.symm, _, ?_, hplace⟩
    rw [hoffset, hhead, Nat.add_assoc]

theorem exists_beginsAt {text folded : List Char} {ms : List Located} {m : Located}
    (hfold : foldCase text = .ok folded) (hms : tokenize folded = .ok ms) (hm : m ∈ ms) :
    ∃ start c rest, text = start ++ c :: rest ∧ BeginsAt start c m.token m.offset := by
  rcases foldCase_eq_ok_iff.1 hfold with
    ⟨htext, rfl⟩ | ⟨before, quote, body, rest, rfl, hbefore, hquote, hbody, rfl⟩
  · exact (Stretch.all htext).beginsAt hms hm
  · obtain ⟨pre, hpre⟩ := exists_tokenizeFrom_of_not_isQuote 0 (not_isQuote_of_lower hbefore)
    rw [tokenize_around_literal _ hpre hquote hbody] at hms
    obtain ⟨post, hpost, rfl⟩ := map_eq_ok_iff.1 hms
    rcases List.mem_append.1 hm with hm | hm
    · exact (Stretch.before hbefore hquote hbody).beginsAt hpre hm
    · rcases List.mem_cons.1 hm with rfl | hm
      · exact ⟨before, quote, _, rfl, .inl ⟨_, foldCase_eq_ok_iff.2 (.inl ⟨hbefore, rfl⟩), rfl⟩⟩
      · exact (Stretch.behind hbefore hquote hbody).beginsAt hpost hm

def OpensLiteral (text start : List Char) : Prop :=
  ∃ quote rest, text = start ++ quote :: rest ∧ isQuote quote = true ∧ quote ∉ rest ∧
    ∃ ls, tokenize start = .ok ls

theorem tokenize_eq_error_iff_opensLiteral {text : List Char} {n : Nat} :
    tokenize text = .error n ↔ ∃ start, OpensLiteral text start ∧ n = utf8Length start := by
  rw [tokenize_eq_error_iff]
  constructor
  · intro h
    obtain ⟨start, quote, rest, htext, hn, hstart, hquote, hrest⟩ := h
    exact ⟨start, ⟨quote, rest, htext, hquote, hrest, hstart⟩, hn⟩
  · intro h
    obtain ⟨start, ⟨quote, rest, htext, hquote, hrest, hstart⟩, hn⟩ := h
    exact ⟨start, quote, rest, htext, hn, hstart, hquote, hrest⟩

theorem exists_foldCase_of_tokenize {text : List Char} {ls : List Located}
    (h : tokenize text = .ok ls) : ∃ folded, foldCase text = .ok folded := by
  cases hfold : foldCase text with
  | ok folded => exact ⟨folded, rfl⟩
  | error n =>
    obtain ⟨before, quote, after, htext, -, hbefore, hquote, hafter⟩ :=
      foldCase_eq_error_iff.1 hfold
    have herror : tokenize text = .error (utf8Length before) :=
      tokenize_eq_error_iff.2 ⟨before, quote, after, htext, rfl,
        exists_tokenizeFrom_of_not_isQuote 0 hbefore, hquote, hafter⟩
    rw [h] at herror
    cases herror

theorem tokenize_foldCase_eq_error {text start folded : List Char} (h : OpensLiteral text start)
    (hfold : foldCase text = .ok folded) :
    ∃ n, tokenize folded = .error n ∧ (∃ c ∈ start, isQuote c = true) ∧ FoldsToLength start n := by
  obtain ⟨quote, rest, rfl, hquote, hrest, ls, hls⟩ := h
  obtain ⟨folded', hfold'⟩ := exists_foldCase_of_tokenize hls
  rcases foldCase_eq_ok_iff.1 hfold' with
    ⟨hstart, -⟩ | ⟨before, first, body, cs, rfl, hbefore, hfirst, hbody, rfl⟩
  · rw [foldCase_of_unclosed hstart hquote hrest] at hfold
    cases hfold
  · have hletter := not_isAlphabetic_of_isQuote hquote
    -- The part in front of the quote folds as it would alone, but for the forms of its sigmas.
    let lead := lower before ++ first :: (body ++ first :: lowerBetween [] (quote :: rest) cs)
    have hfolded : foldCase (before ++ first :: (body ++ first :: cs) ++ quote :: rest) =
        .ok (lead ++ quote :: lowerFrom (quote :: (cs.reverse ++ [])) rest) := by
      refine foldCase_eq_ok_iff.2
        (.inr ⟨before, first, body, cs ++ quote :: rest, by simp, hbefore, hfirst, hbody, ?_⟩)
      have hlower : lower (cs ++ quote :: rest) = lowerBetween [] (quote :: rest) cs ++
          quote :: lowerFrom (quote :: (cs.reverse ++ [])) rest := by
        rw [lower, lowerFrom_append, lowerFrom_cons_of_not_alphabetic _ _ hletter]
      rw [hlower]
      simp [lead]
    rw [hfolded] at hfold
    cases hfold
    have hlead : ∃ ms, tokenize lead = .ok ms := by
      refine exists_tokenize_of_filter_eq ?_ ⟨ls, hls⟩
      simp only [lead, List.filter_append, List.filter_cons, filter_isQuote_lower,
        filter_isQuote_lowerBetween]
    have hopen : quote ∉ lowerFrom (quote :: (cs.reverse ++ [])) rest := fun hmem =>
      hrest (mem_of_mem_lowerFrom hmem (isSign_of_isQuote hquote))
    refine ⟨utf8Length lead, ?_, ⟨first, by simp, hfirst⟩, _, hfold', ?_⟩
    · exact tokenize_eq_error_iff.2 ⟨lead, quote, _, rfl, rfl, hlead, hquote, hopen⟩
    · simp only [lead, utf8Length_append, utf8Length, utf8Length_lowerBetween, utf8Length_lower]

/-- The byte `n` that is named for an open quote behind `start`. It is counted in the folded text,
but before folding if it is the first quote. -/
def QuoteByte (start : List Char) (n : Nat) : Prop :=
  (∀ c ∈ start, isQuote c = false) ∧ n = utf8Length start ∨
    (∃ c ∈ start, isQuote c = true) ∧ FoldsToLength start n

theorem QuoteByte.eq_utf8Length {start : List Char} {n : Nat} (h : QuoteByte start n)
    (hkeep : KeepsLength start) : n = utf8Length start := by
  rcases h with ⟨-, hn⟩ | ⟨-, hn⟩
  · exact hn
  · exact hn.eq_utf8Length hkeep

theorem exists_opensLiteral {text : List Char} {n : Nat}
    (h : foldCase text = .error n ∨
      ∃ folded, foldCase text = .ok folded ∧ tokenize folded = .error n) :
    ∃ start, OpensLiteral text start ∧ QuoteByte start n := by
  rcases h with hfold | ⟨folded, hfold, hn⟩
  · obtain ⟨start, quote, rest, rfl, rfl, hstart, hquote, hrest⟩ := foldCase_eq_error_iff.1 hfold
    have hls := exists_tokenizeFrom_of_not_isQuote 0 hstart
    exact ⟨start, ⟨quote, rest, rfl, hquote, hrest, hls⟩, .inl ⟨hstart, rfl⟩⟩
  · cases htext : tokenize text with
    | ok ls =>
      obtain ⟨ms, hms⟩ := exists_tokenize_of_filter_eq (filter_isQuote_foldCase hfold) ⟨ls, htext⟩
      rw [hn] at hms
      cases hms
    | error k =>
      obtain ⟨start, hopens, -⟩ := tokenize_eq_error_iff_opensLiteral.1 htext
      obtain ⟨m, hm, hquoted, hlength⟩ := tokenize_foldCase_eq_error hopens hfold
      rw [hn] at hm
      cases hm
      exact ⟨start, hopens, .inr ⟨hquoted, hlength⟩⟩

theorem not_isBlank_head?_trim (cs : List Char) : ∀ c ∈ (trim cs).head?, isBlank c = false := by
  intro c hc
  obtain ⟨rest, hrest⟩ := List.head?_eq_some_iff.1 hc
  have hprefix : trim cs <+: trimStart cs := by
    rw [trim, trimEnd, ← List.reverse_suffix, List.reverse_reverse]
    exact List.dropWhile_suffix _
  obtain ⟨more, hmore⟩ := hprefix
  have hstop := List.head?_dropWhile_not isBlank cs
  rw [← trimStart, ← hmore, hrest] at hstop
  exact hstop

theorem exists_place (cs : List Char) :
    ∃ b b', cs = b ++ (trim cs ++ b') ∧ (∀ c ∈ b, isBlank c = true) ∧ (∀ c ∈ b', isBlank c = true) ∧
      ∀ start rest, trim cs = start ++ rest → trimStart (b ++ start) = start := by
  obtain ⟨b, b', hcs, hb, hb'⟩ := exists_eq_blanks_trim cs
  refine ⟨b, b', hcs, hb, hb', fun start rest htrim => ?_⟩
  rw [trimStart_append_blanks hb]
  cases start with
  | nil => rfl
  | cons c start =>
    exact trimStart_of_head? ⟨c, rfl, not_isBlank_head?_trim cs c (by rw [htrim]; rfl)⟩

theorem filter_isQuote_blanks {cs : List Char} (h : ∀ c ∈ cs, isBlank c = true) :
    cs.filter isQuote = [] :=
  List.filter_eq_nil_iff.2 fun c hc => by simp [(Inert.blanks h c hc).1]

theorem OpensLiteral.of_blanks {text start b b' : List Char} (h : OpensLiteral text start)
    (hb : ∀ c ∈ b, isBlank c = true) (hb' : ∀ c ∈ b', isBlank c = true) :
    OpensLiteral (b ++ (text ++ b')) (b ++ start) := by
  obtain ⟨quote, rest, rfl, hquote, hrest, hstart⟩ := h
  refine ⟨quote, rest ++ b', by simp, hquote, ?_, exists_tokenize_of_filter_eq ?_ hstart⟩
  · intro hmem
    rcases List.mem_append.1 hmem with hmem | hmem
    · exact hrest hmem
    · have hblank := not_isBlank_of_isQuote hquote
      rw [hb' quote hmem] at hblank
      cases hblank
  · rw [List.filter_append, filter_isQuote_blanks hb, List.nil_append]

def StandsAt (text start : List Char) (t : Token) (n : Nat) : Prop :=
  ∃ ls l span rest, text = start ++ (span ++ rest) ∧ Spelling l.token span ∧
    tokenize (trim text) = .ok ls ∧ l ∈ ls ∧ l.offset = utf8Length (trimStart start) ∧
    FoldsAt (trim text) l ⟨n, t⟩

theorem read_eq_error {text : List Char} {e : SyntaxFault} {n : Nat} (h : read text = .error e)
    (hn : e.offset? = some n) :
    (e = .openQuote n ∧ (foldCase (trim text) = .error n ∨
      ∃ folded, foldCase (trim text) = .ok folded ∧ tokenize folded = .error n)) ∨
    ∃ t folded ms, e = .unexpected t n ∧ foldCase (trim text) = .ok folded ∧
      tokenize folded = .ok ms ∧ ⟨n, t⟩ ∈ ms := by
  unfold read at h
  split at h
  · next folded hfold =>
    rcases readStatement_eq_error h hn with ⟨he, herror⟩ | ⟨t, ms, he, hms, hmem⟩
    · exact .inl ⟨he, .inr ⟨folded, hfold, herror⟩⟩
    · exact .inr ⟨t, folded, ms, he, hfold, hms, hmem⟩
  · next k hfold =>
    cases h
    cases hn
    exact .inl ⟨rfl, .inl hfold⟩

theorem exists_opensLiteral_trim {cs : List Char} {n : Nat}
    (h : foldCase (trim cs) = .error n ∨
      ∃ folded, foldCase (trim cs) = .ok folded ∧ tokenize folded = .error n) :
    ∃ start, OpensLiteral cs start ∧ QuoteByte (trimStart start) n := by
  obtain ⟨start, hopens, hn⟩ := exists_opensLiteral h
  obtain ⟨b, b', hcs, hb, hb', hplace⟩ := exists_place cs
  have hstart : trimStart (b ++ start) = start := by
    obtain ⟨quote, rest, htrim, -⟩ := hopens
    exact hplace start _ htrim
  have hopens' := hopens.of_blanks hb hb'
  rw [← hcs] at hopens'
  refine ⟨b ++ start, hopens', ?_⟩
  rwa [hstart]

theorem exists_beginsAt_trim {cs folded : List Char} {ms : List Located} {t : Token} {n : Nat}
    (hfold : foldCase (trim cs) = .ok folded) (hms : tokenize folded = .ok ms)
    (hm : ⟨n, t⟩ ∈ ms) :
    ∃ start c rest, cs = start ++ c :: rest ∧ BeginsAt (trimStart start) c t n := by
  obtain ⟨start, c, rest, htrim, hbegins⟩ := exists_beginsAt hfold hms hm
  obtain ⟨b, b', hcs, hb, hb', hplace⟩ := exists_place cs
  refine ⟨b ++ start, c, rest ++ b', ?_, ?_⟩
  · rw [hcs, htrim]
    simp
  · rw [hplace start _ htrim]
    exact hbegins

theorem exists_standsAt {cs folded : List Char} {ls ms : List Located} {t : Token} {n : Nat}
    (hls : tokenize (trim cs) = .ok ls) (hfold : foldCase (trim cs) = .ok folded)
    (hms : tokenize folded = .ok ms) (hm : ⟨n, t⟩ ∈ ms) (hdot : Undotted (ls.map Located.token)) :
    ∃ start, StandsAt cs start t n ∧ FoldsToLength (trimStart start) n := by
  obtain ⟨ms', hms', hall⟩ := forall₂_foldsAt hls hfold hdot
  rw [hms] at hms'
  cases hms'
  obtain ⟨l, hl, hlm⟩ := exists_of_forall₂ hall.flip hm
  obtain ⟨start, span, rest, htrim, hspan, hoffset, hlength⟩ := hlm.placed
  obtain ⟨b, b', hcs, hb, hb', hplace⟩ := exists_place cs
  have hstart := hplace start _ htrim
  refine ⟨b ++ start, ⟨ls, l, span, rest ++ b', ?_, hspan, hls, hl, ?_, hlm⟩, ?_⟩
  · rw [hcs, htrim]
    simp
  · rw [hstart, hoffset]
  · rw [hstart]
    exact hlength

theorem KeepsLength.undotted {cs : List Char} {ls : List Located} (h : KeepsLength cs)
    (hls : tokenize cs = .ok ls) : Undotted (ls.map Located.token) := by
  intro w hw hdot
  obtain ⟨ps, rfl, hspans⟩ := spans_of_tokenizeFrom hls
  obtain ⟨l, hl, hlw⟩ := List.mem_map.1 hw
  obtain ⟨p, hp, rfl⟩ := List.mem_map.1 hl
  obtain ⟨before, after, hcs, -⟩ := hspans.placed p hp
  have hspelling := (hspans.spelled p hp).2
  rw [hlw] at hspelling
  have hspan : p.2 = w.toList := by
    generalize p.2 = span at hspelling
    cases hspelling
    rfl
  have hlength := h dottedI (by rw [hcs, hspan]; simp [hdot])
  exact absurd hlength (by decide +kernel)

theorem trimStart_of_append {cs start rest : List Char}
    (hcs : ∀ c ∈ cs.head?, isBlank c = false) (h : cs = start ++ rest) :
    trimStart start = start := by
  cases start with
  | nil => rfl
  | cons c start => exact trimStart_of_head? ⟨c, rfl, hcs c (by rw [h]; rfl)⟩

/-- What a fault at byte `n` of a query is about. For a token it is the byte in the folded text,
which has the token there. If no word of the query has a dotted I, the query has the token, too. -/
inductive FaultAt (text : List Char) (n : Nat) : SyntaxFault → Prop where
  | openQuote {start : List Char} (hopens : OpensLiteral text start)
      (hn : QuoteByte (trimStart start) n) : FaultAt text n (.openQuote n)
  | unexpected {folded start rest : List Char} {c : Char} {ms : List Located} {t : Token}
      (hfold : foldCase (trim text) = .ok folded) (hms : tokenize folded = .ok ms)
      (hm : ⟨n, t⟩ ∈ ms) (hcut : text = start ++ c :: rest)
      (hbegins : BeginsAt (trimStart start) c t n)
      (hstands : ∀ ls, tokenize (trim text) = .ok ls → Undotted (ls.map Located.token) →
        ∃ place, StandsAt text place t n ∧ FoldsToLength (trimStart place) n) :
      FaultAt text n (.unexpected t n)

/-- A fault that names a byte is that of a quote which nothing closes or of a token. The query, once
it is trimmed and folded, has that many bytes in front of the place; the first quote alone is
counted before folding. Where trimming and folding keep all lengths, the byte is the one of the
query. -/
theorem parse_offsets {text : String} {e : SyntaxFault} {n : Nat} (h : parse text = .error e)
    (hn : e.offset? = some n) :
    FaultAt text.toList n e ∧
    ((∀ c ∈ text.toList.head?, isBlank c = false) → KeepsLength text.toList →
      ∃ start, n = utf8Length start ∧ (e = .openQuote n ∧ OpensLiteral text.toList start ∨
        ∃ t, e = .unexpected t n ∧ StandsAt text.toList start t n)) := by
  rcases read_eq_error h hn with ⟨rfl, hopen⟩ | ⟨t, folded, ms, rfl, hfold, hms, hm⟩
  · obtain ⟨start, hopens, hbyte⟩ := exists_opensLiteral_trim hopen
    refine ⟨.openQuote hopens hbyte, fun hhead hkeep => ⟨start, ?_, .inl ⟨rfl, hopens⟩⟩⟩
    obtain ⟨quote, rest, htext, -⟩ := hopens
    rw [trimStart_of_append hhead htext] at hbyte
    exact hbyte.eq_utf8Length fun c hc => hkeep c (by rw [htext]; simp [hc])
  · have hstands : ∀ ls, tokenize (trim text.toList) = .ok ls → Undotted (ls.map Located.token) →
        ∃ start, StandsAt text.toList start t n ∧ FoldsToLength (trimStart start) n :=
      fun ls hls => exists_standsAt hls hfold hms hm
    obtain ⟨start, c, rest, hcut, hbegins⟩ := exists_beginsAt_trim hfold hms hm
    refine ⟨.unexpected hfold hms hm hcut hbegins hstands, fun hhead hkeep => ?_⟩
    obtain ⟨ls, hls⟩ :=
      exists_tokenize_of_filter_eq (filter_isQuote_foldCase hfold).symm ⟨ms, hms⟩
    have hkeep' : KeepsLength (trim text.toList) := fun c hc =>
      hkeep c ((List.dropWhile_sublist _).mem (mem_of_mem_trimEnd hc))
    obtain ⟨start, hstand, hlength⟩ := hstands ls hls (hkeep'.undotted hls)
    have hplace := hstand
    obtain ⟨-, -, span, rest, htext, -⟩ := hplace
    rw [trimStart_of_append hhead htext] at hlength
    refine ⟨start, hlength.eq_utf8Length fun c hc => hkeep c ?_, .inr ⟨t, rfl, hstand⟩⟩
    rw [htext]
    simp [hc]

theorem parse_offsets_kelvin :
    parse " SELECT \u212A.A FROM T 'É' \"y" = .error (.openQuote 23) ∧
    FaultAt " SELECT \u212A.A FROM T 'É' \"y".toList 23 (.openQuote 23) ∧
    parse "SELECT T.A FROM T U" = .error (.unexpected (.word "u") 18) ∧
    ∃ start, 18 = utf8Length start ∧
      StandsAt "SELECT T.A FROM T U".toList start (.word "u") 18 := by
  have hopen : parse " SELECT \u212A.A FROM T 'É' \"y" = .error (.openQuote 23) := by
    have hfold : foldCase (trim " SELECT \u212A.A FROM T 'É' \"y".toList) =
        .ok "select k.a from t 'É' \"y".toList :=
      eq_ok_of_toOption (by decide +kernel)
    rw [parse_eq_readStatement hfold, readStatement, readTokens_eq_tokensWithin]
    decide +kernel
  have hunexpected : parse "SELECT T.A FROM T U" = .error (.unexpected (.word "u") 18) := by
    have hfold : foldCase (trim "SELECT T.A FROM T U".toList) = .ok "select t.a from t u".toList :=
      eq_ok_of_toOption (by decide +kernel)
    rw [parse_eq_readStatement hfold, readStatement, readTokens_eq_tokensWithin]
    decide +kernel
  have hhead : ∀ c ∈ "SELECT T.A FROM T U".toList.head?, isBlank c = false := by
    have hfirst : "SELECT T.A FROM T U".toList.head? = some 'S' := by decide +kernel
    rw [hfirst]
    intro c hc
    obtain rfl := Option.mem_some_iff.1 hc
    decide
  have hkeep : KeepsLength "SELECT T.A FROM T U".toList := .of_all (by decide +kernel)
  obtain ⟨start, hn, ⟨he, -⟩ | ⟨t, he, hstands⟩⟩ := (parse_offsets hunexpected rfl).2 hhead hkeep
  · cases he
  · cases he
    exact ⟨hopen, (parse_offsets hopen rfl).1, hunexpected, start, hn, hstands⟩

/-- With white space in front, the byte of a quote is that of another character; behind a Kelvin
sign, the byte of a token is that of white space. -/
theorem not_forall_parse_offsets :
    (¬ ∀ text n, parse text = .error (.openQuote n) →
      ∃ start quote rest, text.toList = start ++ quote :: rest ∧ n = utf8Length start ∧
        isQuote quote = true ∧ quote ∉ rest) ∧
    ¬ ∀ text t n, parse text = .error (.unexpected t n) →
      ∃ start c rest, text.toList = start ++ c :: rest ∧ n = utf8Length start ∧
        isBlank c = false := by
  constructor
  · intro h
    have hopen : parse "  SELECT t.a FROM t WHERE t.b = 'x" = .error (.openQuote 30) := by
      rw [parse, read]
      decide +kernel
    obtain ⟨start, quote, rest, htext, hn, hquote, -⟩ := h _ _ hopen
    have hdrop := dropBytes_append start (quote :: rest)
    rw [← hn, ← htext] at hdrop
    have hequals : dropBytes 30 "  SELECT t.a FROM t WHERE t.b = 'x".toList = "= 'x".toList := by
      decide +kernel
    rw [hequals] at hdrop
    obtain ⟨rfl, -⟩ := List.cons.inj hdrop
    cases hquote
  · intro h
    have hunexpected : parse "SELECT \u212A.a FROM t  t" = .error (.unexpected (.word "t") 19) := by
      have hfold : foldCase (trim "SELECT \u212A.a FROM t  t".toList) =
          .ok "select k.a from t  t".toList :=
        eq_ok_of_toOption (by decide +kernel)
      rw [parse_eq_readStatement hfold, readStatement, readTokens_eq_tokensWithin]
      decide +kernel
    obtain ⟨start, c, rest, htext, hn, hblank⟩ := h _ _ _ hunexpected
    have hdrop := dropBytes_append start (c :: rest)
    rw [← hn, ← htext] at hdrop
    have hspace : dropBytes 19 "SELECT \u212A.a FROM t  t".toList = "  t".toList := by
      decide +kernel
    rw [hspace] at hdrop
    obtain ⟨rfl, -⟩ := List.cons.inj hdrop
    cases hblank

end RowSelect.Query
