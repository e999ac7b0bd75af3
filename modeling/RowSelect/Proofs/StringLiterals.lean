import RowSelect.Proofs.CaseFolding
import RowSelect.Proofs.SelectedRows

/-!
Where the string of a condition comes from. Case folding and splitting look for quotes each on its
own; they come to the same first one, and a statement has no place for a second literal, so the
string is the quoted piece of the query as it was written.
-/

set_option autoImplicit false

namespace RowSelect.Query

open RowSelect.Text

def isLiteral : Token → Bool
  | .literal _ => true
  | _ => false

/-- The first quote of the text opens a body, the next quote of its kind closes it, and the rest
stands behind that. -/
inductive FirstQuoted : List Char → List Char → List Char → Prop where
  | mk {before body rest : List Char} {quote : Char} (hbefore : ∀ c ∈ before, isQuote c = false)
      (hquote : isQuote quote = true) (hbody : quote ∉ body) :
      FirstQuoted (before ++ quote :: (body ++ quote :: rest)) body rest

structure IsTail (cs : List Char) : Prop where
  chars : ∀ c ∈ cs, isBlank c = true ∨ c = ';'
  count : cs.count ';' ≤ 1

def Statement.ComparesWith (s : Statement) (v : String) : Prop :=
  ∃ c, s.condition = some c ∧ c.right = .literal (.string v)

theorem not_isQuote_of_mem_splitNumber {cs : List Char} {c : Char} (hc : c ∈ (splitNumber cs).1) :
    isQuote c = false := by
  cases hquote : isQuote c with
  | false => rfl
  | true =>
    have hnumber := mem_splitNumber hc
    simp only [isQuote, Bool.or_eq_true, beq_iff_eq] at hquote
    rcases hquote with rfl | rfl <;> exact absurd hnumber (by decide)

theorem lex?_of_not_isQuote {c : Char} {cs : List Char} {x : Lexed} (hx : lex? c cs = some x)
    (hc : isQuote c = false) : isLiteral x.token = false ∧ ∀ d ∈ x.spelling, isQuote d = false := by
  cases starts_of_lex? hx with
  | comparison cs =>
    have hequals : isQuote '=' = false := by decide
    unfold lexComparison
    split <;> exact ⟨rfl, by simpa [hequals] using hc⟩
  | literal rest hquote =>
    rw [hc] at hquote
    cases hquote
  | number cs =>
    refine ⟨rfl, fun d hd => ?_⟩
    rcases List.mem_cons.1 hd with rfl | hd
    · exact hc
    · exact not_isQuote_of_mem_splitNumber hd
  | word cs =>
    refine ⟨rfl, fun d hd => ?_⟩
    rcases List.mem_cons.1 hd with rfl | hd
    · exact hc
    · exact not_isQuote_of_isWordChar (List.mem_takeWhile_imp hd)
  | _ => exact ⟨rfl, by simpa using hc⟩

def NoLiteral (ts : List Token) : Prop := ∀ t ∈ ts, isLiteral t = false

@[simp] theorem noLiteral_nil : NoLiteral [] := by
  simp [NoLiteral]

@[simp] theorem noLiteral_cons {t : Token} {ts : List Token} :
    NoLiteral (t :: ts) ↔ isLiteral t = false ∧ NoLiteral ts := by
  simp [NoLiteral]

@[simp] theorem noLiteral_append {ts us : List Token} :
    NoLiteral (ts ++ us) ↔ NoLiteral ts ∧ NoLiteral us := by
  simp [NoLiteral, or_imp, forall_and]

/-- Where an element first breaks off a run, a part of the text without such elements is part of the
run. -/
theorem exists_append_of_run {α : Type} {p : α → Bool} {xs ys run rest : List α} {x : α}
    (h : xs ++ ys = run ++ x :: rest) (hxs : ∀ y ∈ xs, p y = false) (hx : p x = true) :
    ∃ more, run = xs ++ more ∧ ys = more ++ x :: rest := by
  rcases List.append_eq_append_iff.1 h with ⟨more, hrun, hys⟩ | ⟨more, hxs', hrest⟩
  · exact ⟨more, hrun, hys⟩
  · cases more with
    | nil => exact ⟨[], by simpa using hxs'.symm, by simpa using hrest.symm⟩
    | cons y more =>
      obtain ⟨rfl, -⟩ := List.cons.inj hrest
      have hy := hxs x (by simp [hxs'])
      rw [hx] at hy
      cases hy

theorem Lexes.quote_split {before after : List Char} {quote : Char} {ts : List Token}
    (h : Lexes (before ++ quote :: after) ts []) (hbefore : ∀ c ∈ before, isQuote c = false)
    (hquote : isQuote quote = true) :
    ∃ us x vs, ts = us ++ x.token :: vs ∧ NoLiteral us ∧ lexLiteral? quote after = some x ∧
      Lexes x.rest vs [] := by
  -- The induction on the split wants variables for the text and for what is left of it.
  generalize hcs : before ++ quote :: after = cs at h
  generalize hnil : ([] : List Char) = rest at h
  induction h generalizing before with
  | done cs =>
    rw [← hnil] at hcs
    simp at hcs
  | @blank c cs rest ts hc _ ih =>
    cases before with
    | nil =>
      obtain ⟨rfl, -⟩ := List.cons.inj hcs
      rw [not_isBlank_of_isQuote hquote] at hc
      cases hc
    | cons b before =>
      obtain ⟨rfl, hrest⟩ := List.cons.inj hcs
      exact ih (fun c hc => hbefore c (List.mem_cons_of_mem _ hc)) hrest hnil
  | @token c cs rest x ts _ hx hts ih =>
    cases before with
    | nil =>
      obtain ⟨rfl, rfl⟩ := List.cons.inj hcs
      rw [lex?_of_isQuote _ hquote] at hx
      exact ⟨[], x, ts, rfl, noLiteral_nil, hx, hnil ▸ hts⟩
    | cons b before =>
      obtain ⟨rfl, rfl⟩ := List.cons.inj hcs
      obtain ⟨hliteral, hspelling⟩ := lex?_of_not_isQuote hx (hbefore b (List.mem_cons_self ..))
      have hcut : x.spelling ++ x.rest = (b :: before) ++ quote :: after := lex?_append hx
      obtain ⟨more, hmore, hrest⟩ := exists_append_of_run hcut hspelling hquote
      have hquiet : ∀ c ∈ more, isQuote c = false := fun c hc =>
        hbefore c (by rw [hmore]; exact List.mem_append_right _ hc)
      obtain ⟨us, y, vs, rfl, hus, hy, hvs⟩ := ih hquiet hrest.symm hnil
      exact ⟨x.token :: us, y, vs, rfl, noLiteral_cons.2 ⟨hliteral, hus⟩, hy, hvs⟩

theorem Lexes.noLiteral {cs rest : List Char} {ts : List Token} (h : Lexes cs ts rest)
    (hcs : ∀ c ∈ cs, isQuote c = false) : NoLiteral ts := by
  induction h with
  | done => exact noLiteral_nil
  | blank _ _ ih => exact ih fun d hd => hcs d (List.mem_cons_of_mem _ hd)
  | @token c cs _ x ts _ hx _ ih =>
    have hliteral := (lex?_of_not_isQuote hx (hcs c (List.mem_cons_self ..))).1
    have hrest : ∀ d ∈ x.rest, isQuote d = false := fun d hd =>
      hcs d (by rw [← lex?_append hx]; exact List.mem_append_right _ hd)
    exact noLiteral_cons.2 ⟨hliteral, ih hrest⟩

theorem IsList.noLiteral {ts : List Token} {ws : List String} (h : IsList ts ws) :
    NoLiteral ts := by
  induction h with
  | one => simp [isLiteral]
  | more _ _ ih => simpa [isLiteral] using ih

theorem IsEnd.noLiteral {ts : List Token} (h : IsEnd ts) : NoLiteral ts := by
  cases h <;> simp [isLiteral]

theorem noLiteral_of_isNoise {ts : List Token} (h : ∀ t ∈ ts, isNoise t = true) :
    NoLiteral ts := by
  intro t ht
  have hnoise := h t ht
  cases t <;> first | rfl | cases hnoise

theorem IsCondition.literal {ts : List Token} {c : Condition} (h : IsCondition ts c) :
    ((∀ v, c.right ≠ .literal (.string v)) ∧ NoLiteral ts) ∨
    ∃ us v, ts = us ++ [.literal v] ∧ NoLiteral us ∧ c.right = .literal (.string v) := by
  cases h with
  | @mk w left op noise t right hw hnoise ht =>
    have hquiet := noLiteral_of_isNoise hnoise
    cases ht with
    | string v =>
      exact .inr ⟨.word w :: .operator op :: noise, v, rfl, by simpa [isLiteral] using hquiet, rfl⟩
    | number hs => exact .inl ⟨by simp, by simpa [isLiteral] using hquiet⟩
    | column hw' => exact .inl ⟨by simp, by simpa [isLiteral] using hquiet⟩

/-- The literal of a statement, if it has one, is the right operand of its condition, and only the
end of the statement comes behind it. -/
theorem IsStatement.literal {ts : List Token} {s : Statement} (h : IsStatement ts s) :
    ((∀ v, ¬ s.ComparesWith v) ∧ NoLiteral ts) ∨
    ∃ us v es, ts = us ++ .literal v :: es ∧ NoLiteral us ∧ IsEnd es ∧ s.ComparesWith v := by
  cases h with
  | @mk cs ts us es columns tables condition hcolumns htables hwhere hend =>
    have hlists : NoLiteral (.word "select" :: (cs ++ .word "from" :: ts)) := by
      simpa [isLiteral] using ⟨hcolumns.noLiteral, htables.noLiteral⟩
    cases hwhere with
    | none =>
      left
      exact ⟨by simp [Statement.ComparesWith], by simpa [isLiteral, hend.noLiteral] using hlists⟩
    | @some us c hc =>
      rcases hc.literal with ⟨hright, hus⟩ | ⟨us, v, rfl, hus, hright⟩
      · left
        refine ⟨by simpa [Statement.ComparesWith] using hright, ?_⟩
        simpa [isLiteral, hus, hend.noLiteral] using hlists
      · right
        refine ⟨.word "select" :: (cs ++ .word "from" :: (ts ++ .word "where" :: us)), v, es,
          by simp, ?_, hend, c, rfl, hright⟩
        simpa [isLiteral, hus] using hlists

theorem dropWhile_of_noLiteral {us : List Token} (v : String) (vs : List Token)
    (hus : NoLiteral us) :
    (us ++ Token.literal v :: vs).dropWhile (!isLiteral ·) = .literal v :: vs :=
  dropWhile_append_stop (fun t ht => by simp [hus t ht]) rfl

theorem IsStatement.comparesWith {us vs : List Token} {v : String} {s : Statement}
    (h : IsStatement (us ++ .literal v :: vs) s) (hus : NoLiteral us) :
    s.ComparesWith v ∧ IsEnd vs := by
  rcases h.literal with ⟨-, hnone⟩ | ⟨us', v', es, hts, hus', hend, hv⟩
  · have hmem := hnone (.literal v) (by simp)
    cases hmem
  · have hsame := dropWhile_of_noLiteral v vs hus
    rw [hts, dropWhile_of_noLiteral v' es hus'] at hsame
    cases hsame
    exact ⟨hv, hend⟩

theorem Statement.ComparesWith.unique {s : Statement} {v w : String} (hv : s.ComparesWith v)
    (hw : s.ComparesWith w) : v = w := by
  obtain ⟨c, hc, hright⟩ := hv
  obtain ⟨d, hd, hright'⟩ := hw
  rw [hc] at hd
  cases hd
  rw [hright] at hright'
  simpa using hright'

theorem lex?_eq_semicolon {c : Char} {cs : List Char} {x : Lexed} (h : lex? c cs = some x)
    (hx : x.token = .semicolon) : c = ';' ∧ x.rest = cs := by
  cases starts_of_lex? h with
  | semicolon => exact ⟨rfl, rfl⟩
  | comparison cs =>
    obtain ⟨op, hop⟩ := lexComparison_token c cs
    rw [hop] at hx
    cases hx
  | _ => cases hx

theorem isEnd_cons {t : Token} {ts : List Token} :
    IsEnd (t :: ts) ↔ t = .semicolon ∧ ts = [] := by
  constructor
  · intro h
    cases h
    exact ⟨rfl, rfl⟩
  · intro h
    obtain ⟨rfl, rfl⟩ := h
    exact .semicolon

theorem Lexes.tail {cs rest : List Char} {es : List Token} (h : Lexes cs es rest)
    (hrest : rest = []) (hes : IsEnd es) :
    (∀ c ∈ cs, isBlank c = true ∨ c = ';') ∧ cs.count ';' = es.length := by
  induction h with
  | done cs => simp [hrest]
  | @blank c cs rest es hc _ ih =>
    obtain ⟨hchars, hcount⟩ := ih hrest hes
    have hne : c ≠ ';' := by
      rintro rfl
      exact absurd hc (by decide)
    refine ⟨by simpa [hc] using hchars, ?_⟩
    rwa [List.count_cons_of_ne hne]
  | @token c cs rest x es _ hx _ ih =>
    obtain ⟨htoken, rfl⟩ := isEnd_cons.1 hes
    obtain ⟨rfl, hcs⟩ := lex?_eq_semicolon hx htoken
    obtain ⟨hchars, hcount⟩ := ih hrest .bare
    rw [hcs] at hchars hcount
    exact ⟨by simpa using hchars, by simp [hcount]⟩

theorem isTail_of_lexes_lower {cs : List Char} {es : List Token} (h : Lexes (lower cs) es [])
    (hes : IsEnd es) : IsTail cs := by
  obtain ⟨hchars, hcount⟩ := h.tail rfl hes
  have hsigns : ∀ c ∈ lower cs, isSign c = true := by
    intro c hc
    rcases hchars c hc with hblank | rfl
    · exact isSign_of_isBlank hblank
    · decide
  rw [lower, lowerFrom_of_signs hsigns] at hchars hcount
  refine ⟨hchars, ?_⟩
  rw [hcount]
  cases hes <;> simp

theorem string_of_foldCase {cs ds : List Char} {ls : List Located} {s : Statement}
    (hfold : foldCase cs = .ok ds) (hls : tokenize ds = .ok ls)
    (hs : IsStatement (ls.map Located.token) s) :
    ((∀ c ∈ cs, isQuote c = false) ∧ ∀ v, ¬ s.ComparesWith v) ∨
    ∃ v rest, s.ComparesWith v ∧ FirstQuoted cs v.toList rest ∧ IsTail rest := by
  have hlex := lexes_of_tokenizeFrom hls
  rcases foldCase_eq_ok_iff.1 hfold with ⟨hnone, rfl⟩ |
    ⟨before, quote, body, rest, rfl, hbefore, hquote, hbody, rfl⟩
  · left
    refine ⟨hnone, ?_⟩
    rcases hs.literal with ⟨h, -⟩ | ⟨us, v, es, hts, -⟩
    · exact h
    · have hquiet := hlex.noLiteral (not_isQuote_of_lower hnone)
      rw [hts] at hquiet
      simp [isLiteral] at hquiet
  · right
    obtain ⟨us, x, vs, hts, hus, hx, hvs⟩ :=
      hlex.quote_split (not_isQuote_of_lower hbefore) hquote
    rw [lexLiteral?_eq_some hbody] at hx
    cases hx
    rw [hts] at hs
    obtain ⟨hv, hend⟩ := hs.comparesWith hus
    refine ⟨_, rest, hv, ?_, isTail_of_lexes_lower hvs hend⟩
    rw [String.toList_ofList]
    exact .mk hbefore hquote hbody

theorem FirstQuoted.exists_isQuote {cs body rest : List Char} (h : FirstQuoted cs body rest) :
    ∃ c ∈ cs, isQuote c = true := by
  cases h with
  | @mk _ _ _ quote _ hquote _ => exact ⟨quote, by simp, hquote⟩

theorem not_isQuote_of_trim {cs : List Char} (h : ∀ c ∈ trim cs, isQuote c = false) :
    ∀ c ∈ cs, isQuote c = false := by
  obtain ⟨b, b', hcs, hb, hb'⟩ := exists_eq_blanks_trim cs
  intro c hc
  rw [hcs, List.mem_append, List.mem_append] at hc
  rcases hc with hc | hc | hc
  · exact (Inert.blanks hb c hc).1
  · exact h c hc
  · exact (Inert.blanks hb' c hc).1

theorem FirstQuoted.of_trim {cs body rest : List Char} (h : FirstQuoted (trim cs) body rest)
    (hrest : IsTail rest) : ∃ rest', FirstQuoted cs body rest' ∧ IsTail rest' := by
  obtain ⟨b, b', hcs, hb, hb'⟩ := exists_eq_blanks_trim cs
  generalize trim cs = ds at h hcs
  cases h with
  | @mk before _ _ quote hbefore hquote hbody =>
    refine ⟨rest ++ b', ?_, ?_, ?_⟩
    · have hall : cs = (b ++ before) ++ quote :: (body ++ quote :: (rest ++ b')) := by simp [hcs]
      rw [hall]
      refine .mk (fun c hc => ?_) hquote hbody
      rcases List.mem_append.1 hc with hc | hc
      · exact (Inert.blanks hb c hc).1
      · exact hbefore c hc
    · intro c hc
      rcases List.mem_append.1 hc with hc | hc
      · exact hrest.chars c hc
      · exact .inl (hb' c hc)
    · have hnone : b'.count ';' = 0 := by
        refine List.count_eq_zero.2 fun hmem => ?_
        exact absurd (hb' _ hmem) (by decide)
      rw [List.count_append, hnone]
      exact hrest.count

/-- A query has quotes exactly if its condition compares with a string. That string is then what
stands, letter by letter, between the first quote and the next one of its kind, behind which there
are only white space and at most one semicolon. -/
theorem parse_string {text : String} {s : Statement} (h : parse text = .ok s) :
    ((∃ c ∈ text.toList, isQuote c = true) ↔ ∃ v, s.ComparesWith v) ∧
    ∀ v, s.ComparesWith v → ∃ rest, FirstQuoted text.toList v.toList rest ∧ IsTail rest := by
  unfold parse read at h
  split at h
  · next folded hfold =>
    obtain ⟨ls, hls, hs⟩ := readStatement_sound h
    rcases string_of_foldCase hfold hls hs with ⟨hnone, hstring⟩ | ⟨v, rest, hv, hquoted, hrest⟩
    · have hquiet := not_isQuote_of_trim hnone
      refine ⟨⟨fun hquote => ?_, fun hv => ?_⟩, fun v hv => absurd hv (hstring v)⟩
      · obtain ⟨c, hc, hquote⟩ := hquote
        rw [hquiet c hc] at hquote
        cases hquote
      · obtain ⟨v, hv⟩ := hv
        exact absurd hv (hstring v)
    · obtain ⟨rest', hquoted', hrest'⟩ := hquoted.of_trim hrest
      refine ⟨⟨fun _ => ⟨v, hv⟩, fun _ => hquoted'.exists_isQuote⟩, fun w hw => ?_⟩
      rw [← hv.unique hw]
      exact ⟨rest', hquoted', hrest'⟩
  · cases h

theorem parse_mixedCase : parse " SELECT É.X FROM É WHERE É.K <, \"It's ÀB;\" ; " =
    .ok ⟨["é.x"], ["é"], some ⟨⟨"é", "k"⟩, .lt, .literal (.string "It's ÀB;")⟩⟩ := by
  have hfold : foldCase (Text.trim " SELECT É.X FROM É WHERE É.K <, \"It's ÀB;\" ; ".toList) =
      .ok "select é.x from é where é.k <, \"It's ÀB;\" ;".toList :=
    eq_ok_of_toOption (by decide +kernel)
  apply eq_ok_of_toOption
  rw [parse_eq_readStatement hfold, readStatement, readTokens_eq_tokensWithin]
  decide +kernel

theorem parse_string_mixedCase : ∃ s,
    parse " SELECT É.X FROM É WHERE É.K <, \"It's ÀB;\" ; " = .ok s ∧
    s.ComparesWith "It's ÀB;" ∧
    (∃ c ∈ " SELECT É.X FROM É WHERE É.K <, \"It's ÀB;\" ; ".toList, isQuote c = true) ∧
    ∃ rest, FirstQuoted " SELECT É.X FROM É WHERE É.K <, \"It's ÀB;\" ; ".toList
      "It's ÀB;".toList rest ∧ IsTail rest := by
  have hstring : Statement.ComparesWith ⟨["é.x"], ["é"],
      some ⟨⟨"é", "k"⟩, .lt, .literal (.string "It's ÀB;")⟩⟩ "It's ÀB;" := ⟨_, rfl, rfl⟩
  obtain ⟨hquote, hquoted⟩ := parse_string parse_mixedCase
  exact ⟨_, parse_mixedCase, hstring, hquote.2 ⟨_, hstring⟩, hquoted _ hstring⟩

end RowSelect.Query
