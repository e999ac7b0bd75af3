import RowSelect.Proofs.Lexing
import RowSelect.Proofs.Outcome
import RowSelect.Query.Grammar

/-!
The grammar of statements as a relation between tokens and what they mean, and the reader as a
decision of it.
-/

set_option autoImplicit false

namespace RowSelect.Query

open RowSelect.Text

inductive IsList : List Token → List String → Prop where
  | one {w : String} (hw : w ∉ keywords) : IsList [.word w] [w]
  | more {w : String} {ts : List Token} {ws : List String} (hw : w ∉ keywords)
      (hrest : IsList ts ws) : IsList (.word w :: .comma :: ts) (w :: ws)

structure IsQualified (w : String) (ref : ColumnRef) : Prop where
  eq : w = ref.table ++ "." ++ ref.column
  table_ne : ref.table ≠ ""
  column_ne : ref.column ≠ ""
  table_dot : '.' ∉ ref.table.toList
  column_dot : '.' ∉ ref.column.toList

/-- A digit, then digits, commas and spaces, then perhaps a point and digits, with a finite value. The
separators count for nothing. -/
inductive IsNumber : List Char → Number → Prop where
  | whole {d : Char} {cs : List Char} {n : Number} (hd : d.isDigit = true)
      (hcs : ∀ c ∈ cs, (c.isDigit || isSeparator c) = true)
      (hn : Number.ofNumeral? ⟨false, (d :: cs).filter Char.isDigit, none, none⟩ = some n) :
      IsNumber (d :: cs) n
  | decimal {d : Char} {cs fraction : List Char} {n : Number} (hd : d.isDigit = true)
      (hcs : ∀ c ∈ cs, (c.isDigit || isSeparator c) = true) (hne : fraction ≠ [])
      (hfraction : ∀ c ∈ fraction, c.isDigit = true)
      (hn : Number.ofNumeral? ⟨false, (d :: cs).filter Char.isDigit, some fraction, none⟩ = some n) :
      IsNumber (d :: cs ++ '.' :: fraction) n

inductive IsOperand : Token → Operand → Prop where
  | string (s : String) : IsOperand (.literal s) (.literal (.string s))
  | number {s : String} {n : Number} (hs : IsNumber s.toList n) :
      IsOperand (.number s) (.literal (.number n))
  | column {w : String} {ref : ColumnRef} (hw : IsQualified w ref) :
      IsOperand (.word w) (.column ref)

/-- The first operator counts; what else stands before the right operand is noise. -/
inductive IsCondition : List Token → Condition → Prop where
  | mk {w : String} {left : ColumnRef} {op : Operator} {noise : List Token} {t : Token}
      {right : Operand} (hw : IsQualified w left) (hnoise : ∀ u ∈ noise, isNoise u = true)
      (ht : IsOperand t right) :
      IsCondition (.word w :: .operator op :: (noise ++ [t])) ⟨left, op, right⟩

inductive IsWhere : List Token → Option Condition → Prop where
  | none : IsWhere [] none
  | some {ts : List Token} {c : Condition} (h : IsCondition ts c) :
      IsWhere (.word "where" :: ts) (some c)

inductive IsEnd : List Token → Prop where
  | bare : IsEnd []
  | semicolon : IsEnd [.semicolon]

inductive IsStatement : List Token → Statement → Prop where
  | mk {cs ts us es : List Token} {columns tables : List String} {condition : Option Condition}
      (hcolumns : IsList cs columns) (htables : IsList ts tables) (hwhere : IsWhere us condition)
      (hend : IsEnd es) :
      IsStatement (.word "select" :: (cs ++ .word "from" :: (ts ++ (us ++ es))))
        ⟨columns, tables, condition⟩

theorem ofWord?_eq_some_iff {w : String} {ref : ColumnRef} :
    ColumnRef.ofWord? w = some ref ↔ IsQualified w ref := by
  constructor
  · intro h
    unfold ColumnRef.ofWord? at h
    dsimp only at h
    cases hd : w.toList.dropWhile (· != '.') with
    | nil => simp [hd] at h
    | cons dot column =>
      obtain ⟨hcut, hdot⟩ := cut_of_dropWhile_bne hd
      rw [hd] at h
      dsimp only at h
      by_cases hbad : w.toList.takeWhile (· != '.') = [] ∨ column = [] ∨ '.' ∈ column
      · rw [if_pos hbad] at h
        cases h
      · rw [if_neg hbad] at h
        cases h
        simp only [not_or] at hbad
        obtain ⟨htable, hcolumn, hnot⟩ := hbad
        refine ⟨String.toList_inj.1 (by simpa using hcut), ?_, ?_, by simpa using hdot,
          by simpa using hnot⟩
        · exact mt String.ofList_eq_empty_iff.1 htable
        · exact mt String.ofList_eq_empty_iff.1 hcolumn
  · intro h
    obtain ⟨hw, htable, hcolumn, hdot, hnot⟩ := h
    have hlist : w.toList = ref.table.toList ++ '.' :: ref.column.toList := by simp [hw]
    have htable' : ref.table.toList ≠ [] := mt String.toList_eq_nil_iff.1 htable
    have hcolumn' : ref.column.toList ≠ [] := mt String.toList_eq_nil_iff.1 hcolumn
    simp only [ColumnRef.ofWord?, hlist, takeWhile_bne_append hdot, dropWhile_bne_append hdot,
      htable', hcolumn', hnot, or_self, if_false, String.ofList_toList]

theorem numeralOfText?_whole {d : Char} {cs : List Char} (hd : d.isDigit = true)
    (hcs : ∀ c ∈ cs, (c.isDigit || isSeparator c) = true) :
    numeralOfText? (d :: cs) = some ⟨false, (d :: cs).filter Char.isDigit, none, none⟩ := by
  have hall : ∀ c ∈ d :: cs, (c.isDigit || isSeparator c) = true := by
    simpa [hd] using hcs
  simp only [numeralOfText?, List.takeWhile_eq_self_iff.2 hall, List.dropWhile_eq_nil_iff.2 hall,
    List.head?_cons, Option.map_some, Option.getD_some, hd, if_true]

theorem numeralOfText?_decimal {d : Char} {cs fraction : List Char} (hd : d.isDigit = true)
    (hcs : ∀ c ∈ cs, (c.isDigit || isSeparator c) = true) (hne : fraction ≠ [])
    (hfraction : ∀ c ∈ fraction, c.isDigit = true) :
    numeralOfText? (d :: cs ++ '.' :: fraction) =
      some ⟨false, (d :: cs).filter Char.isDigit, some fraction, none⟩ := by
  have hall : ∀ c ∈ d :: cs, (c.isDigit || isSeparator c) = true := by
    simpa [hd] using hcs
  have hpoint : ('.'.isDigit || isSeparator '.') = false := by decide
  have hdigits : fraction.all Char.isDigit = true := List.all_eq_true.2 hfraction
  have hhead : (d :: cs ++ '.' :: fraction).head? = some d := rfl
  simp only [numeralOfText?, takeWhile_append_stop hall hpoint, dropWhile_append_stop hall hpoint,
    hhead, Option.map_some, Option.getD_some, hd, hne, hdigits, ne_eq, not_false_eq_true, and_self,
    if_true]

theorem isNumber_of_numeralOfText? {cs : List Char} {numeral : Numeral} {n : Number}
    (h : numeralOfText? cs = some numeral) (hn : Number.ofNumeral? numeral = some n) :
    IsNumber cs n := by
  unfold numeralOfText? at h
  dsimp only at h
  cases cs with
  | nil => simp at h
  | cons d cs =>
    simp only [List.head?_cons, Option.map_some, Option.getD_some] at h
    cases hd : d.isDigit with
    | false => split at h <;> simp [hd] at h
    | true =>
      have htake : ∀ xs : List Char, (d :: xs).takeWhile (fun c => c.isDigit || isSeparator c) =
          d :: xs.takeWhile fun c => c.isDigit || isSeparator c := by
        intro xs
        exact List.takeWhile_cons_of_pos (by simp [hd])
      cases hdrop : (d :: cs).dropWhile fun c => c.isDigit || isSeparator c with
      | nil =>
        have hall := List.dropWhile_eq_nil_iff.1 hdrop
        rw [hdrop, List.takeWhile_eq_self_iff.2 hall] at h
        simp only [hd, if_true, Option.some.injEq] at h
        subst h
        exact .whole hd (fun c hc => hall c (List.mem_cons_of_mem _ hc)) hn
      | cons point fraction =>
        obtain ⟨hcut, hrun, -⟩ := cut_of_dropWhile hdrop
        rw [hdrop] at h
        rw [htake] at h hcut hrun
        by_cases hshape : point = '.' ∧ fraction ≠ [] ∧ fraction.all Char.isDigit = true
        · obtain ⟨rfl, hne, hdigits⟩ := hshape
          simp only [hd, hne, hdigits, ne_eq, not_false_eq_true, and_self, if_true,
            Option.some.injEq] at h
          subst h
          rw [hcut]
          exact .decimal hd (fun c hc => hrun c (List.mem_cons_of_mem _ hc)) hne
            (List.all_eq_true.1 hdigits) hn
        · simp only [hd, true_and, hshape, if_false] at h
          cases h

theorem readNumber_eq_ok_iff {s : String} {v : Json} :
    readNumber s = .ok v ↔ ∃ n, IsNumber s.toList n ∧ v = .number n := by
  constructor
  · intro h
    unfold readNumber at h
    cases hbind : (numeralOfText? s.toList).bind Number.ofNumeral? with
    | none => simp [hbind] at h
    | some n =>
      obtain ⟨numeral, hnumeral, hn⟩ := Option.bind_eq_some_iff.1 hbind
      rw [hbind] at h
      cases h
      exact ⟨n, isNumber_of_numeralOfText? hnumeral hn, rfl⟩
  · intro h
    obtain ⟨n, hs, rfl⟩ := h
    have hbind : (numeralOfText? s.toList).bind Number.ofNumeral? = some n := by
      generalize s.toList = cs at hs ⊢
      cases hs with
      | whole hd hcs hn => rw [numeralOfText?_whole hd hcs, Option.bind_some, hn]
      | decimal hd hcs hne hfraction hn =>
        rw [numeralOfText?_decimal hd hcs hne hfraction, Option.bind_some, hn]
    rw [readNumber, hbind]

theorem readList_sound {what : Expected} {ls rest : List Located} {ws : List String}
    (h : readList what ls = .ok (ws, rest)) :
    ∃ pre, ls = pre ++ rest ∧ IsList (pre.map Located.token) ws := by
  fun_induction readList what ls generalizing ws with
  | case1 => cases h
  | case2 => cases h
  | case3 offset w hw comma more vs tail hmore ih =>
    cases h
    obtain ⟨pre, rfl, hlist⟩ := ih hmore
    exact ⟨⟨offset, .word w⟩ :: ⟨comma, .comma⟩ :: pre, rfl, .more hw hlist⟩
  | case4 => cases h
  | case5 offset w tail hw =>
    cases h
    exact ⟨[⟨offset, .word w⟩], rfl, .one hw⟩
  | case6 => cases h

theorem readList_complete {what : Expected} {pre rest : List Located} {ts : List Token}
    {ws : List String} (hlist : IsList ts ws) (hpre : pre.map Located.token = ts)
    (hrest : rest.head?.map Located.token ≠ some .comma) :
    readList what (pre ++ rest) = .ok (ws, rest) := by
  induction hlist generalizing pre with
  | one hw =>
    obtain ⟨l, rfl, hl⟩ := List.map_eq_singleton_iff.1 hpre
    obtain ⟨offset, token⟩ := l
    cases hl
    rw [List.singleton_append, readList, if_neg hw]
    intro comma more hcomma
    simp [hcomma] at hrest
  | more hw _ ih =>
    obtain ⟨l, pre', rfl, hl, hpre'⟩ := List.map_eq_cons_iff.1 hpre
    obtain ⟨m, pre'', rfl, hm, hpre''⟩ := List.map_eq_cons_iff.1 hpre'
    obtain ⟨offset, token⟩ := l
    obtain ⟨comma, token'⟩ := m
    cases hl
    cases hm
    rw [List.cons_append, List.cons_append, readList, if_neg hw]
    simp only [ih hpre'']

theorem readLeft_eq_ok_iff {ls rest : List Located} {ref : ColumnRef} :
    readLeft ls = .ok (ref, rest) ↔
      ∃ offset w, ls = ⟨offset, .word w⟩ :: rest ∧ IsQualified w ref := by
  unfold readLeft
  constructor
  · intro h
    split at h
    · cases h
    · next offset w more =>
      split at h
      · next ref' href =>
        cases h
        exact ⟨offset, w, rfl, ofWord?_eq_some_iff.1 href⟩
      · cases h
    · cases h
    · cases h
  · intro h
    obtain ⟨offset, w, rfl, hw⟩ := h
    simp only [ofWord?_eq_some_iff.2 hw]

theorem readOperator_eq_ok_iff {ls rest : List Located} {op : Operator} :
    readOperator ls = .ok (op, rest) ↔ ∃ offset, ls = ⟨offset, .operator op⟩ :: rest := by
  unfold readOperator
  constructor
  · intro h
    split at h
    · next offset op' more =>
      cases h
      exact ⟨offset, rfl⟩
    · cases h
  · intro h
    obtain ⟨offset, rfl⟩ := h
    rfl

theorem readRight_eq_ok_iff {ls rest : List Located} {right : Operand} :
    readRight ls = .ok (right, rest) ↔
      ∃ l, ls = l :: rest ∧ IsOperand l.token right := by
  unfold readRight
  constructor
  · intro h
    split at h
    · cases h
    · next offset s more =>
      cases h
      exact ⟨_, rfl, .string s⟩
    · next offset s more =>
      split at h
      · next v hv =>
        cases h
        obtain ⟨n, hn, rfl⟩ := readNumber_eq_ok_iff.1 hv
        exact ⟨_, rfl, .number hn⟩
      · cases h
    · next offset w more =>
      split at h
      · next ref href =>
        cases h
        exact ⟨_, rfl, .column (ofWord?_eq_some_iff.1 href)⟩
      · cases h
    · cases h
  · intro h
    obtain ⟨⟨offset, token⟩, rfl, hright⟩ := h
    cases hright with
    | string s => rfl
    | number hs => simp only [readNumber_eq_ok_iff.2 ⟨_, hs, rfl⟩]
    | column hw => simp only [ofWord?_eq_some_iff.2 hw]

theorem isNoise_eq_false_of_isOperand {t : Token} {right : Operand} (h : IsOperand t right) :
    isNoise t = false := by
  cases h <;> rfl

theorem readComparison_sound {ls rest : List Located} {c : Condition}
    (h : readComparison ls = .ok (c, rest)) :
    ∃ pre, ls = pre ++ rest ∧ IsCondition (pre.map Located.token) c := by
  unfold readComparison at h
  obtain ⟨⟨left, ls₁⟩, hleft, h⟩ := bind_eq_ok.1 h
  obtain ⟨⟨op, ls₂⟩, hop, h⟩ := bind_eq_ok.1 h
  obtain ⟨⟨right, ls₃⟩, hright, h⟩ := bind_eq_ok.1 h
  cases h
  obtain ⟨i, w, rfl, hw⟩ := readLeft_eq_ok_iff.1 hleft
  obtain ⟨j, rfl⟩ := readOperator_eq_ok_iff.1 hop
  obtain ⟨l, hdrop, ht⟩ := readRight_eq_ok_iff.1 hright
  obtain ⟨hcut, hnoise, -⟩ := cut_of_dropWhile hdrop
  refine ⟨⟨i, .word w⟩ :: ⟨j, .operator op⟩ :: (ls₂.takeWhile (isNoise ·.token) ++ [l]), ?_, ?_⟩
  · rw [List.cons_append, List.cons_append, List.append_assoc, List.singleton_append, ← hcut]
  · simp only [List.map_cons, List.map_append, List.map_nil]
    refine .mk hw (fun u hu => ?_) ht
    obtain ⟨m, hm, rfl⟩ := List.mem_map.1 hu
    exact hnoise m hm

theorem readComparison_complete {pre rest : List Located} {ts : List Token} {c : Condition}
    (hc : IsCondition ts c) (hpre : pre.map Located.token = ts) :
    readComparison (pre ++ rest) = .ok (c, rest) := by
  cases hc with
  | @mk w left op noise t right hw hnoise ht =>
    obtain ⟨l, pre₁, rfl, hl, hpre₁⟩ := List.map_eq_cons_iff.1 hpre
    obtain ⟨m, pre₂, rfl, hm, hpre₂⟩ := List.map_eq_cons_iff.1 hpre₁
    obtain ⟨skipped, last, rfl, hskipped, hlast⟩ := List.map_eq_append_iff.1 hpre₂
    obtain ⟨r, rfl, hr⟩ := List.map_eq_singleton_iff.1 hlast
    obtain ⟨i, token⟩ := l
    obtain ⟨j, token'⟩ := m
    cases hl
    cases hm
    have hrun : ∀ x ∈ skipped, isNoise x.token = true := by
      intro x hx
      exact hnoise _ (hskipped ▸ List.mem_map_of_mem hx)
    have hstop : isNoise r.token = false := by
      rw [hr]
      exact isNoise_eq_false_of_isOperand ht
    have hdrop : (skipped ++ [r] ++ rest).dropWhile (isNoise ·.token) = r :: rest := by
      rw [List.append_assoc]
      exact dropWhile_append_stop hrun hstop
    rw [readComparison, List.cons_append, readLeft_eq_ok_iff.2 ⟨i, w, rfl, hw⟩, ok_bind]
    dsimp only
    rw [List.cons_append, readOperator_eq_ok_iff.2 ⟨j, rfl⟩, ok_bind]
    dsimp only
    rw [hdrop, readRight_eq_ok_iff.2 ⟨r, rfl, hr ▸ ht⟩, ok_bind]
    rfl

theorem readEnd_eq_ok_iff {ls : List Located} :
    readEnd ls = .ok () ↔ IsEnd (ls.map Located.token) := by
  constructor
  · intro h
    cases ls with
    | nil => exact .bare
    | cons l rest =>
      obtain ⟨offset, token⟩ := l
      cases token with
      | semicolon =>
        cases rest with
        | nil => exact .semicolon
        | cons => simp [readEnd] at h
      | _ => simp [readEnd] at h
  · intro h
    generalize hts : ls.map Located.token = ts at h
    cases h with
    | bare =>
      obtain rfl := List.map_eq_nil_iff.1 hts
      rfl
    | semicolon =>
      obtain ⟨⟨offset, token⟩, rfl, rfl⟩ := List.map_eq_singleton_iff.1 hts
      rfl

theorem readTokens_eq_ok_iff {text : List Char} {ls : List Located} :
    readTokens text = .ok ls ↔ tokenize text = .ok ls := by
  unfold readTokens
  cases tokenize text <;> simp

theorem tokenize_of_tokensWithin {text : List Char} {ls : List Located}
    (h : (tokensWithin text.length 0 text).toOption = some ls) : tokenize text = .ok ls := by
  rw [tokenize, tokenizeFrom_eq_tokensWithin (Nat.le_refl text.length)]
  exact eq_ok_of_toOption h

theorem readTokens_eq_tokensWithin (text : List Char) :
    readTokens text = (tokensWithin text.length 0 text).mapError .openQuote := by
  rw [readTokens, tokenize, tokenizeFrom_eq_tokensWithin (Nat.le_refl text.length)]
  cases tokensWithin text.length 0 text <;> rfl

theorem readSelect_eq_ok_iff {ls rest : List Located} :
    readSelect ls = .ok rest ↔ ∃ offset, ls = ⟨offset, .word "select"⟩ :: rest := by
  unfold readSelect
  constructor
  · intro h
    split at h
    · next offset more =>
      cases h
      exact ⟨offset, rfl⟩
    · cases h
  · intro h
    obtain ⟨offset, rfl⟩ := h
    rfl

theorem readFrom_eq_ok_iff {ls rest : List Located} :
    readFrom ls = .ok rest ↔ ∃ offset, ls = ⟨offset, .word "from"⟩ :: rest := by
  unfold readFrom
  constructor
  · intro h
    split at h
    · next offset more =>
      cases h
      exact ⟨offset, rfl⟩
    · cases h
  · intro h
    obtain ⟨offset, rfl⟩ := h
    rfl

theorem readWhere_sound {text : List Char} {ls rest : List Located} {c : Option Condition}
    (h : readWhere text ls = .ok (c, rest)) :
    ∃ pre, ls = pre ++ rest ∧ IsWhere (pre.map Located.token) c := by
  unfold readWhere at h
  split at h
  · next offset more =>
    obtain ⟨-, -, h⟩ := bind_eq_ok.1 h
    obtain ⟨⟨condition, ls'⟩, hcondition, h⟩ := bind_eq_ok.1 h
    cases h
    obtain ⟨pre, rfl, hc⟩ := readComparison_sound hcondition
    exact ⟨⟨offset, .word "where"⟩ :: pre, rfl, .some hc⟩
  · cases h
    exact ⟨[], rfl, .none⟩

theorem IsQualified.three_le_length {w : String} {ref : ColumnRef} (h : IsQualified w ref) :
    3 ≤ w.toList.length := by
  have htable := List.length_pos_iff.2 (mt String.toList_eq_nil_iff.1 h.table_ne)
  have hcolumn := List.length_pos_iff.2 (mt String.toList_eq_nil_iff.1 h.column_ne)
  have hlist : w.toList = ref.table.toList ++ '.' :: ref.column.toList := by simp [h.eq]
  rw [hlist, List.length_append, List.length_cons]
  omega

theorem checkConditionLength_of_qualified {cs rest : List Char} {w : String} {ref : ColumnRef}
    {ts : List Token} (h : Lexes cs (.word w :: ts) rest) (hw : IsQualified w ref) :
    checkConditionLength cs = .ok () := by
  obtain ⟨bs, more, rfl, hbs, hchars⟩ := h.word_split
  have hlength := hw.three_le_length
  have hne : w.toList ≠ [] := List.length_pos_iff.1 (by omega)
  have hstart : trimStart (w.toList ++ more) = w.toList ++ more := by
    obtain ⟨c, cs, hcs⟩ := List.exists_cons_of_ne_nil hne
    have hc := not_isBlank_of_isWordChar (hchars c (by simp [hcs]))
    exact trimStart_of_head? ⟨c, by simp [hcs], hc⟩
  have hend : trimEnd (w.toList ++ more) = w.toList ++ trimEnd more := by
    have hlast := not_isBlank_of_isWordChar (hchars _ (List.getLast_mem hne))
    rw [← List.dropLast_concat_getLast hne, List.append_assoc, List.append_assoc]
    exact trimEnd_append_solid hlast
  have htrim : trim (bs ++ (w.toList ++ more)) = w.toList ++ trimEnd more := by
    rw [trim, trimStart_append_blanks hbs, hstart, hend]
  have hbytes := length_le_utf8Length (w.toList ++ trimEnd more)
  rw [List.length_append] at hbytes
  rw [checkConditionLength, htrim, if_neg]
  have hmin : minConditionLength = 3 := rfl
  omega

theorem checkConditionLength_of_lexes {cs rest : List Char} {ts us : List Token} {c : Condition}
    (h : Lexes cs (ts ++ us) rest) (hc : IsCondition ts c) : checkConditionLength cs = .ok () := by
  cases hc with
  | mk hw => exact checkConditionLength_of_qualified h hw

theorem lexes_dropBytes {text : List Char} {pre post : List Located} {offset : Nat} {w : String}
    (h : tokenize text = .ok (pre ++ ⟨offset, .word w⟩ :: post)) :
    Lexes (dropBytes (offset + utf8Length w.toList) text) (post.map Located.token) [] := by
  obtain ⟨before, c, more, x, rfl, hoffset, hx, hword, hrest⟩ := split_of_tokenizeFrom h
  dsimp only at hoffset hword
  have hspelling := (lex?_eq_word hx hword).2.1
  have hbytes : offset + utf8Length w.toList = utf8Length (before ++ x.spelling) := by
    rw [utf8Length_append, hspelling]
    omega
  rw [hbytes, ← lex?_append hx, ← List.append_assoc, dropBytes_append]
  exact hrest

theorem readWhere_complete {text : List Char} {before pre rest : List Located}
    {c : Option Condition} (htext : tokenize text = .ok (before ++ (pre ++ rest)))
    (hc : IsWhere (pre.map Located.token) c) (hrest : IsEnd (rest.map Located.token)) :
    readWhere text (pre ++ rest) = .ok (c, rest) := by
  generalize hts : pre.map Located.token = ts at hc
  cases hc with
  | none =>
    obtain rfl := List.map_eq_nil_iff.1 hts
    generalize hes : rest.map Located.token = es at hrest
    cases hrest with
    | bare =>
      obtain rfl := List.map_eq_nil_iff.1 hes
      rfl
    | semicolon =>
      obtain ⟨⟨offset, token⟩, rfl, rfl⟩ := List.map_eq_singleton_iff.1 hes
      rfl
  | @some us condition hc =>
    obtain ⟨⟨offset, token⟩, pre, rfl, rfl, rfl⟩ := List.map_eq_cons_iff.1 hts
    have hlexes := lexes_dropBytes htext
    rw [List.append_eq, List.map_append] at hlexes
    have hlength : checkConditionLength (dropBytes (offset + 5) text) = .ok () :=
      checkConditionLength_of_lexes hlexes hc
    rw [List.cons_append, readWhere, hlength, ok_bind, readComparison_complete hc rfl, ok_bind]
    rfl

theorem readStatement_sound {text : List Char} {s : Statement} (h : readStatement text = .ok s) :
    ∃ ls, tokenize text = .ok ls ∧ IsStatement (ls.map Located.token) s := by
  unfold readStatement at h
  obtain ⟨ls, htokens, h⟩ := bind_eq_ok.1 h
  obtain ⟨ls₁, hselect, h⟩ := bind_eq_ok.1 h
  obtain ⟨⟨columns, ls₂⟩, hcolumns, h⟩ := bind_eq_ok.1 h
  obtain ⟨ls₃, hfrom, h⟩ := bind_eq_ok.1 h
  obtain ⟨⟨tables, ls₄⟩, htables, h⟩ := bind_eq_ok.1 h
  obtain ⟨⟨condition, ls₅⟩, hwhere, h⟩ := bind_eq_ok.1 h
  obtain ⟨u, hend, h⟩ := bind_eq_ok.1 h
  cases h
  refine ⟨ls, readTokens_eq_ok_iff.1 htokens, ?_⟩
  obtain ⟨i, rfl⟩ := readSelect_eq_ok_iff.1 hselect
  obtain ⟨cs, rfl, hcs⟩ := readList_sound hcolumns
  obtain ⟨j, rfl⟩ := readFrom_eq_ok_iff.1 hfrom
  obtain ⟨ts, rfl, hts⟩ := readList_sound htables
  obtain ⟨us, rfl, hus⟩ := readWhere_sound hwhere
  simp only [List.map_cons, List.map_append]
  exact .mk hcs hts hus (readEnd_eq_ok_iff.1 hend)

theorem head?_ne_comma {us es : List Token} {c : Option Condition} (hwhere : IsWhere us c)
    (hend : IsEnd es) : (us ++ es).head? ≠ some .comma := by
  cases hwhere <;> cases hend <;> simp

theorem readStatement_complete {text : List Char} {ls : List Located} {s : Statement}
    (htext : tokenize text = .ok ls) (hs : IsStatement (ls.map Located.token) s) :
    readStatement text = .ok s := by
  generalize hall : ls.map Located.token = all at hs
  cases hs with
  | @mk cs ts us es columns tables condition hcolumns htables hwhere hend =>
    obtain ⟨⟨i, token⟩, ls₁, rfl, rfl, h₁⟩ := List.map_eq_cons_iff.1 hall
    obtain ⟨lcs, ls₂, rfl, rfl, h₂⟩ := List.map_eq_append_iff.1 h₁
    obtain ⟨⟨j, token⟩, ls₃, rfl, rfl, h₃⟩ := List.map_eq_cons_iff.1 h₂
    obtain ⟨lts, ls₄, rfl, rfl, h₄⟩ := List.map_eq_append_iff.1 h₃
    obtain ⟨lus, les, rfl, rfl, rfl⟩ := List.map_eq_append_iff.1 h₄
    have hhead : (lus ++ les).head?.map Located.token ≠ some .comma := by
      rw [← List.head?_map, List.map_append]
      exact head?_ne_comma hwhere hend
    have hsplit : tokenize text = .ok
        ((⟨i, .word "select"⟩ :: (lcs ++ ⟨j, .word "from"⟩ :: lts)) ++ (lus ++ les)) := by
      simpa using htext
    rw [readStatement, readTokens_eq_ok_iff.2 htext, ok_bind, readSelect_eq_ok_iff.2 ⟨i, rfl⟩,
      ok_bind, readList_complete hcolumns rfl (by simp), ok_bind]
    dsimp only
    rw [readFrom_eq_ok_iff.2 ⟨j, rfl⟩, ok_bind, readList_complete htables rfl hhead, ok_bind]
    dsimp only
    rw [readWhere_complete hsplit hwhere hend, ok_bind]
    dsimp only
    rw [readEnd_eq_ok_iff.2 hend, ok_bind]
    rfl

end RowSelect.Query
