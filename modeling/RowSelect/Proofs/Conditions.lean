import RowSelect.Proofs.Grammar

/-!
Conditions read on their own and as the end of a statement. Splitting starts afresh behind the keyword
of a statement, so the two readings see the same tokens.
-/

set_option autoImplicit false

namespace RowSelect.Query

open RowSelect.Text

inductive IsOpening : List Token → List String → List String → Prop where
  | mk {cs ts : List Token} {columns tables : List String} (hcolumns : IsList cs columns)
      (htables : IsList ts tables) :
      IsOpening (.word "select" :: (cs ++ .word "from" :: (ts ++ [.word "where"]))) columns tables

theorem readCondition_eq_ok_iff {text : List Char} {c : Condition} :
    readCondition text = .ok c ↔
      ∃ ts es, Lexes text (ts ++ es) [] ∧ IsCondition ts c ∧ IsEnd es := by
  constructor
  · intro h
    unfold readCondition at h
    obtain ⟨-, -, h⟩ := bind_eq_ok.1 h
    obtain ⟨ls, htokens, h⟩ := bind_eq_ok.1 h
    obtain ⟨⟨condition, rest⟩, hcondition, h⟩ := bind_eq_ok.1 h
    obtain ⟨u, hend, h⟩ := bind_eq_ok.1 h
    cases h
    obtain ⟨pre, rfl, hc⟩ := readComparison_sound hcondition
    have hlexes := lexes_of_tokenizeFrom (readTokens_eq_ok_iff.1 htokens)
    rw [List.map_append] at hlexes
    exact ⟨_, _, hlexes, hc, readEnd_eq_ok_iff.1 hend⟩
  · intro h
    obtain ⟨ts, es, hlexes, hc, hend⟩ := h
    obtain ⟨ls, htokens, hls⟩ := tokenizeFrom_of_lexes hlexes rfl 0
    obtain ⟨pre, rest, rfl, hpre, rfl⟩ := List.map_eq_append_iff.1 hls
    rw [readCondition, checkConditionLength_of_lexes hlexes hc, ok_bind,
      readTokens_eq_ok_iff.2 htokens, ok_bind, readComparison_complete hc hpre, ok_bind]
    dsimp only
    rw [readEnd_eq_ok_iff.2 hend, ok_bind]
    rfl

theorem readStatement_eq_ok_iff_lexes {text : List Char} {s : Statement} :
    readStatement text = .ok s ↔ ∃ ts, Lexes text ts [] ∧ IsStatement ts s := by
  constructor
  · intro h
    obtain ⟨ls, htokens, hs⟩ := readStatement_sound h
    exact ⟨_, lexes_of_tokenizeFrom htokens, hs⟩
  · intro h
    obtain ⟨ts, hlexes, hs⟩ := h
    obtain ⟨ls, htokens, rfl⟩ := tokenizeFrom_of_lexes hlexes rfl 0
    exact readStatement_complete htokens hs

theorem IsList.unique {ts us rest rest' : List Token} {vs ws : List String} (h : IsList ts vs)
    (h' : IsList us ws) (hrest : rest.head? ≠ some .comma) (hrest' : rest'.head? ≠ some .comma)
    (he : ts ++ rest = us ++ rest') : vs = ws ∧ rest = rest' := by
  induction h generalizing us ws with
  | one =>
    cases h' with
    | one =>
      cases he
      exact ⟨rfl, rfl⟩
    | more =>
      cases he
      simp at hrest
  | @more w ts vs _ _ ih =>
    cases h' with
    | one =>
      cases he
      simp at hrest'
    | @more _ us ws _ hus =>
      simp only [List.cons_append, List.cons.injEq, Token.word.injEq, true_and] at he
      obtain ⟨rfl, he⟩ := he
      obtain ⟨rfl, hsame⟩ := ih hus he
      exact ⟨rfl, hsame⟩

theorem isStatement_append_iff {os ts : List Token} {columns tables : List String} {s : Statement}
    (hos : IsOpening os columns tables) :
    IsStatement (os ++ ts) s ↔
      ∃ c us es, ts = us ++ es ∧ IsCondition us c ∧ IsEnd es ∧ s = ⟨columns, tables, some c⟩ := by
  cases hos with
  | @mk cs us _ _ hcolumns htables =>
    constructor
    · intro h
      generalize hall : _ ++ ts = all at h
      cases h with
      | @mk cs' us' vs es columns' tables' condition hcolumns' htables' hwhere hend =>
        simp only [List.cons_append, List.append_assoc, List.cons.injEq, true_and] at hall
        obtain ⟨rfl, hall⟩ := hcolumns.unique hcolumns' (by simp) (by simp) hall
        have hhead := head?_ne_comma hwhere hend
        obtain ⟨rfl, hall⟩ := htables.unique htables' (by simp) hhead (List.cons.inj hall).2
        cases hwhere with
        | none =>
          obtain rfl : es = .word "where" :: ts := hall.symm
          cases hend
        | @some vs c hc =>
          cases hall
          exact ⟨c, vs, es, rfl, hc, hend, rfl⟩
    · intro h
      obtain ⟨c, vs, es, rfl, hc, hend, rfl⟩ := h
      have hs := IsStatement.mk hcolumns htables (.some hc) hend
      simpa using hs

theorem IsList.words {ts : List Token} {ws : List String} (h : IsList ts ws) :
    ∀ t ∈ ts, t = .comma ∨ ∃ w, t = .word w := by
  induction h with
  | one => simp
  | more _ _ ih => simpa using ih

theorem IsOpening.words {os : List Token} {columns tables : List String}
    (h : IsOpening os columns tables) : ∀ t ∈ os, t = .comma ∨ ∃ w, t = .word w := by
  cases h with
  | mk hcolumns htables =>
    intro t ht
    simp only [List.mem_cons, List.mem_append, List.not_mem_nil, or_false] at ht
    rcases ht with rfl | ht | rfl | ht | rfl
    · exact .inr ⟨_, rfl⟩
    · exact hcolumns.words t ht
    · exact .inr ⟨_, rfl⟩
    · exact htables.words t ht
    · exact .inr ⟨_, rfl⟩

theorem readStatement_append_eq_ok_iff {p c : List Char} {os : List Token}
    {columns tables : List String} {s : Statement} (hp : Lexes p os [])
    (hos : IsOpening os columns tables) (hc : ∀ d ∈ c.head?, isWordChar d = false) :
    readStatement (p ++ c) = .ok s ↔
      ∃ condition, readCondition c = .ok condition ∧ s = ⟨columns, tables, some condition⟩ := by
  have hopening : Lexes (p ++ c) os c := hp.append_text rfl hos.words hc
  constructor
  · intro h
    obtain ⟨ts, hts, hs⟩ := readStatement_eq_ok_iff_lexes.1 h
    obtain ⟨us, rfl, hus⟩ := hopening.split hts
    obtain ⟨condition, vs, es, rfl, hcondition, hend, rfl⟩ := (isStatement_append_iff hos).1 hs
    exact ⟨condition, readCondition_eq_ok_iff.2 ⟨vs, es, hus, hcondition, hend⟩, rfl⟩
  · intro h
    obtain ⟨condition, hread, rfl⟩ := h
    obtain ⟨vs, es, hlexes, hcondition, hend⟩ := readCondition_eq_ok_iff.1 hread
    have hs := (isStatement_append_iff hos).2 ⟨condition, vs, es, rfl, hcondition, hend, rfl⟩
    exact readStatement_eq_ok_iff_lexes.2 ⟨_, hopening.append hlexes, hs⟩

/-- Behind the opening of a statement, which white space may follow, a text that does not go on with
the keyword is read as a condition exactly if it is one on its own. Every other text both readings
refuse as a fault of syntax. -/
theorem readStatement_append {p c : List Char} {ls : List Located} {columns tables : List String}
    (hp : tokenize p = .ok ls) (hos : IsOpening (ls.map Located.token) columns tables)
    (hc : ∀ d ∈ c.head?, isWordChar d = false) :
    (∀ s, readStatement (p ++ c) = .ok s ↔
      ∃ condition, readCondition c = .ok condition ∧ s = ⟨columns, tables, some condition⟩) ∧
    ((¬ ∃ condition, readCondition c = .ok condition) →
      (∃ fault, (readStatement (p ++ c)).mapError Failure.invalidSyntax =
        .error (.invalidSyntax fault)) ∧
      ∃ fault, (readCondition c).mapError Failure.invalidSyntax =
        .error (.invalidSyntax fault)) := by
  have hiff : ∀ s, readStatement (p ++ c) = .ok s ↔
      ∃ condition, readCondition c = .ok condition ∧ s = ⟨columns, tables, some condition⟩ :=
    fun s => readStatement_append_eq_ok_iff (lexes_of_tokenizeFrom hp) hos hc
  refine ⟨hiff, fun hnone => ⟨?_, ?_⟩⟩
  · cases hs : readStatement (p ++ c) with
    | ok s =>
      obtain ⟨condition, hcondition, -⟩ := (hiff s).1 hs
      exact absurd ⟨condition, hcondition⟩ hnone
    | error fault => exact ⟨fault, rfl⟩
  · cases hcondition : readCondition c with
    | ok condition => exact absurd ⟨condition, hcondition⟩ hnone
    | error fault => exact ⟨fault, rfl⟩

theorem readStatement_append_noise :
    readStatement ("select t.x,é from t where".toList ++ "\tt.k >= (\"where\" ;".toList) =
      .ok ⟨["t.x", "é"], ["t"], some ⟨⟨"t", "k"⟩, .ge, .literal (.string "where")⟩⟩ ∧
    ∃ fault, (readStatement ("select t.x,é from t where".toList ++ "<'open".toList)).mapError
      Failure.invalidSyntax = .error (.invalidSyntax fault) := by
  have htokens : tokenize "select t.x,é from t where".toList =
      .ok [⟨0, .word "select"⟩, ⟨7, .word "t.x"⟩, ⟨10, .comma⟩, ⟨11, .word "é"⟩,
        ⟨14, .word "from"⟩, ⟨19, .word "t"⟩, ⟨21, .word "where"⟩] :=
    tokenize_of_tokensWithin (by decide +kernel)
  have hopening : IsOpening [.word "select", .word "t.x", .comma, .word "é", .word "from",
      .word "t", .word "where"] ["t.x", "é"] ["t"] :=
    .mk (.more (by decide) (.one (by decide))) (.one (by decide))
  have hread : readCondition "\tt.k >= (\"where\" ;".toList =
      .ok ⟨⟨"t", "k"⟩, .ge, .literal (.string "where")⟩ := by
    apply eq_ok_of_toOption
    rw [readCondition, readTokens_eq_tokensWithin]
    decide +kernel
  have hopen : (readCondition "<'open".toList).toOption = none := by
    rw [readCondition, readTokens_eq_tokensWithin]
    decide +kernel
  have hsolid : isWordChar '\t' = false ∧ isWordChar '<' = false := by decide
  have htab : ∀ d ∈ "\tt.k >= (\"where\" ;".toList.head?, isWordChar d = false :=
    fun _ hd => Option.some.inj hd ▸ hsolid.1
  have hless : ∀ d ∈ "<'open".toList.head?, isWordChar d = false :=
    fun _ hd => Option.some.inj hd ▸ hsolid.2
  refine ⟨?_, ?_⟩
  · exact ((readStatement_append htokens hopening htab).1 _).2 ⟨_, hread, rfl⟩
  · refine ((readStatement_append htokens hopening hless).2 ?_).1
    rintro ⟨condition, hcondition⟩
    rw [hcondition] at hopen
    cases hopen

end RowSelect.Query
