import RowSelect.Proofs.Conditions
import RowSelect.Proofs.Numerals

/-!
Numbers as operands of a condition. Splitting looks ahead over separators, so a number never ends in
one, while the shape that is checked afterwards would let it; together they leave the numbers whose
separators stand between digits, and those are worth what their digits are.
-/

set_option autoImplicit false

namespace RowSelect.Query

open RowSelect.Text

inductive IsGrouped : List Char → Prop where
  | digits {ds : List Char} (hne : ds ≠ []) (hds : ∀ c ∈ ds, c.isDigit = true) : IsGrouped ds
  | more {ds gap cs : List Char} (hne : ds ≠ []) (hds : ∀ c ∈ ds, c.isDigit = true)
      (hgap : gap ≠ []) (hseps : ∀ c ∈ gap, isSeparator c = true) (hcs : IsGrouped cs) :
      IsGrouped (ds ++ (gap ++ cs))

inductive WritesNumeral : List Char → Numeral → Prop where
  | whole {cs : List Char} (h : IsGrouped cs) :
      WritesNumeral cs ⟨false, cs.filter Char.isDigit, none, none⟩
  | decimal {cs fraction : List Char} (h : IsGrouped cs) (hne : fraction ≠ [])
      (hfraction : ∀ c ∈ fraction, c.isDigit = true) :
      WritesNumeral (cs ++ '.' :: fraction) ⟨false, cs.filter Char.isDigit, some fraction, none⟩

def ungrouped (cs : List Char) : List Char := cs.filter fun c => !isSeparator c

theorem not_isSeparator_of_isDigit {c : Char} (h : c.isDigit = true) : isSeparator c = false := by
  cases hsep : isSeparator c with
  | false => rfl
  | true =>
    simp only [isSeparator, Bool.or_eq_true, beq_iff_eq] at hsep
    rcases hsep with rfl | rfl <;> exact absurd h (by decide)

theorem digitNext_gap {gap : List Char} (rest : List Char)
    (hseps : ∀ c ∈ gap, isSeparator c = true) : digitNext (gap ++ rest) = digitNext rest := by
  rw [digitNext, List.dropWhile_append_of_pos hseps, digitNext]

theorem splitNumber_gap {gap rest : List Char} (hseps : ∀ c ∈ gap, isSeparator c = true)
    (hrest : digitNext rest = true) :
    splitNumber (gap ++ rest) = (gap ++ (splitNumber rest).1, (splitNumber rest).2) := by
  induction gap with
  | nil => rfl
  | cons c gap ih =>
    have hmore : ∀ d ∈ gap, isSeparator d = true := fun d hd => hseps d (List.mem_cons_of_mem _ hd)
    have hc := hseps c (List.mem_cons_self ..)
    rw [List.cons_append, splitNumber_cons (by simp [hc, digitNext_gap rest hmore, hrest]),
      ih hmore]
    rfl

theorem digitNext_splitNumber (cs : List Char) : digitNext (splitNumber cs).1 = digitNext cs := by
  induction cs with
  | nil => rfl
  | cons c cs ih =>
    by_cases hc : (c.isDigit || c == '.' || (isSeparator c && digitNext cs)) = true
    · rw [splitNumber_cons hc]
      cases hsep : isSeparator c with
      | true => rw [digitNext_cons_separator _ hsep, digitNext_cons_separator _ hsep, ih]
      | false => rw [digitNext_cons _ hsep, digitNext_cons _ hsep]
    · rw [splitNumber, if_neg hc]
      simp only [Bool.or_eq_true, Bool.and_eq_true, not_or, not_and, Bool.not_eq_true] at hc
      obtain ⟨⟨hdigit, -⟩, hnext⟩ := hc
      cases hsep : isSeparator c with
      | true =>
        rw [digitNext_cons_separator _ hsep, hnext hsep]
        rfl
      | false =>
        rw [digitNext_cons _ hsep, hdigit]
        rfl

theorem splitNumber_splitNumber (cs : List Char) :
    splitNumber (splitNumber cs).1 = ((splitNumber cs).1, []) := by
  induction cs with
  | nil => rfl
  | cons c cs ih =>
    by_cases hc : (c.isDigit || c == '.' || (isSeparator c && digitNext cs)) = true
    · have hc' := hc
      rw [← digitNext_splitNumber] at hc'
      rw [splitNumber_cons hc, splitNumber_cons hc', ih]
    · rw [splitNumber, if_neg hc]
      rfl

namespace IsGrouped

variable {cs : List Char}

theorem chars (h : IsGrouped cs) : ∀ c ∈ cs, (c.isDigit || isSeparator c) = true := by
  induction h with
  | digits _ hds => exact fun c hc => by rw [hds c hc, Bool.true_or]
  | more _ hds _ hseps _ ih =>
    intro c hc
    rcases List.mem_append.1 hc with hc | hc
    · rw [hds c hc, Bool.true_or]
    · rcases List.mem_append.1 hc with hc | hc
      · rw [hseps c hc, Bool.or_true]
      · exact ih c hc

theorem start (h : IsGrouped cs) : ∃ d more, cs = d :: more ∧ d.isDigit = true := by
  cases h with
  | digits hne hds =>
    obtain ⟨d, ds, rfl⟩ := List.exists_cons_of_ne_nil hne
    exact ⟨d, ds, rfl, hds d (List.mem_cons_self ..)⟩
  | more hne hds =>
    obtain ⟨d, ds, rfl⟩ := List.exists_cons_of_ne_nil hne
    exact ⟨d, _, rfl, hds d (List.mem_cons_self ..)⟩

theorem digitNext_eq (h : IsGrouped cs) (rest : List Char) : digitNext (cs ++ rest) = true := by
  obtain ⟨d, more, rfl, hd⟩ := h.start
  rw [List.cons_append, digitNext_cons _ (not_isSeparator_of_isDigit hd), hd]

theorem splitNumber_eq (h : IsGrouped cs) (rest : List Char) :
    splitNumber (cs ++ rest) = (cs ++ (splitNumber rest).1, (splitNumber rest).2) := by
  induction h with
  | digits _ hds => exact splitNumber_digits rest hds
  | more _ hds _ hseps hcs ih =>
    rw [List.append_assoc, List.append_assoc, splitNumber_digits _ hds,
      splitNumber_gap hseps (hcs.digitNext_eq rest), ih]
    simp

theorem cons_digit {d : Char} (hd : d.isDigit = true) (h : IsGrouped cs) :
    IsGrouped (d :: cs) := by
  cases h with
  | digits _ hds => exact .digits (by simp) (by simpa [hd] using hds)
  | more _ hds hgap hseps hcs =>
    rw [← List.cons_append]
    exact .more (by simp) (by simpa [hd] using hds) hgap hseps hcs

theorem ungrouped_eq (h : IsGrouped cs) : ungrouped cs = cs.filter Char.isDigit := by
  refine List.filter_congr fun c hc => ?_
  have hchar := h.chars c hc
  cases hd : c.isDigit with
  | true => rw [not_isSeparator_of_isDigit hd]; rfl
  | false =>
    rw [hd, Bool.false_or] at hchar
    rw [hchar]
    rfl

theorem filter_ungrouped (h : IsGrouped cs) :
    (ungrouped cs).filter Char.isDigit = cs.filter Char.isDigit := by
  rw [h.ungrouped_eq]
  simp

theorem ungrouped (h : IsGrouped cs) : IsGrouped (ungrouped cs) := by
  obtain ⟨d, more, hcons, hd⟩ := h.start
  rw [h.ungrouped_eq]
  refine .digits ?_ fun c hc => (List.mem_filter.1 hc).2
  simp [hcons, hd]

end IsGrouped

/-- In a text that goes on as a number to its end, separators stand between digits. The induction
carries what a text that starts with separators is, behind which a digit has to come. -/
theorem isGrouped_of_splitNumber {cs tail : List Char}
    (hcs : ∀ c ∈ cs, (c.isDigit || isSeparator c) = true) (htail : digitNext tail = false)
    (hsplit : splitNumber (cs ++ tail) = (cs ++ tail, [])) :
    (∀ d, d.isDigit = true → IsGrouped (d :: cs)) ∧
    (digitNext (cs ++ tail) = true →
      ∃ gap more, cs = gap ++ more ∧ (∀ c ∈ gap, isSeparator c = true) ∧ IsGrouped more) := by
  induction cs with
  | nil =>
    refine ⟨fun d hd => .digits (by simp) (by simpa using hd), fun hnext => ?_⟩
    rw [List.nil_append, htail] at hnext
    cases hnext
  | cons c cs ih =>
    have hcons : (c.isDigit || c == '.' || (isSeparator c && digitNext (cs ++ tail))) = true := by
      by_contra hno
      rw [List.cons_append, splitNumber, if_neg hno] at hsplit
      cases hsplit
    have hrest : splitNumber (cs ++ tail) = (cs ++ tail, []) := by
      rw [List.cons_append, splitNumber_cons hcons] at hsplit
      obtain ⟨hmore, hnil⟩ := Prod.mk.inj hsplit
      exact Prod.ext (List.cons.inj hmore).2 hnil
    obtain ⟨hdigits, hgap⟩ := ih (fun d hd => hcs d (List.mem_cons_of_mem _ hd)) hrest
    cases hsep : isSeparator c with
    | false =>
      have hc : c.isDigit = true := by simpa [hsep] using hcs c (List.mem_cons_self ..)
      have hgrouped := hdigits c hc
      exact ⟨fun d hd => hgrouped.cons_digit hd, fun _ => ⟨[], c :: cs, rfl, by simp, hgrouped⟩⟩
    | true =>
      have hnext : digitNext (cs ++ tail) = true := by
        have hpoint : c ≠ '.' := by
          rintro rfl
          exact absurd hsep (by decide)
        have hdigit : c.isDigit = false := by
          by_contra hd
          rw [not_isSeparator_of_isDigit (by simpa using hd)] at hsep
          cases hsep
        simpa [hpoint, hdigit, hsep] using hcons
      obtain ⟨gap, more, rfl, hseps, hmore⟩ := hgap hnext
      have hall : ∀ e ∈ c :: gap, isSeparator e = true := by simpa [hsep] using hseps
      refine ⟨fun d hd => ?_, fun _ => ⟨c :: gap, more, rfl, hall, hmore⟩⟩
      have hone : ∀ e ∈ [d], e.isDigit = true := by simpa using hd
      exact .more (List.cons_ne_nil d []) hone (List.cons_ne_nil c gap) hall hmore

namespace WritesNumeral

variable {cs : List Char} {n : Numeral}

theorem isPlain (h : WritesNumeral cs n) : n.IsPlain := by
  cases h with
  | whole _ => exact ⟨rfl, rfl, by simp⟩
  | decimal _ _ hfraction =>
    refine ⟨rfl, rfl, fun c hc => ?_⟩
    rcases List.mem_append.1 hc with hc | hc
    · exact (List.mem_filter.1 hc).2
    · exact hfraction c hc

theorem start (h : WritesNumeral cs n) : ∃ d more, cs = d :: more ∧ d.isDigit = true := by
  cases h with
  | whole h => exact h.start
  | decimal h =>
    obtain ⟨d, more, rfl, hd⟩ := h.start
    exact ⟨d, _, rfl, hd⟩

theorem splitNumber_eq (h : WritesNumeral cs n) : splitNumber cs = (cs, []) := by
  cases h with
  | whole h =>
    have hsplit := h.splitNumber_eq []
    simpa [splitNumber] using hsplit
  | decimal h _ hfraction =>
    have hsplit := splitNumber_digits [] hfraction
    rw [List.append_nil] at hsplit
    rw [h.splitNumber_eq, splitNumber_cons (by simp), hsplit]
    simp [splitNumber]

theorem lexes (h : WritesNumeral cs n) : Lexes cs [.number (.ofList cs)] [] := by
  have hsplit := h.splitNumber_eq
  obtain ⟨d, more, rfl, hd⟩ := h.start
  rw [splitNumber_cons (by simp [hd])] at hsplit
  obtain ⟨hmore, hnil⟩ := Prod.mk.inj hsplit
  have hlex := lex?_of_isDigit more hd
  rw [hmore, hnil] at hlex
  exact .token (not_isBlank_of_isDigit hd) hlex (.done [])

theorem numeralOfText?_eq (h : WritesNumeral cs n) : numeralOfText? cs = some n := by
  cases h with
  | whole h =>
    have hchars := h.chars
    obtain ⟨d, more, rfl, hd⟩ := h.start
    exact numeralOfText?_whole hd fun c hc => hchars c (List.mem_cons_of_mem _ hc)
  | decimal h hne hfraction =>
    have hchars := h.chars
    obtain ⟨d, more, rfl, hd⟩ := h.start
    exact numeralOfText?_decimal hd (fun c hc => hchars c (List.mem_cons_of_mem _ hc)) hne hfraction

theorem ungrouped (h : WritesNumeral cs n) : WritesNumeral (ungrouped cs) n := by
  cases h with
  | whole h =>
    rw [← h.filter_ungrouped]
    exact .whole h.ungrouped
  | @decimal cs fraction h hne hfraction =>
    have hkept : fraction.filter (fun c => !isSeparator c) = fraction :=
      List.filter_eq_self.2 fun c hc => by simp [not_isSeparator_of_isDigit (hfraction c hc)]
    have hcut : Query.ungrouped (cs ++ '.' :: fraction) = Query.ungrouped cs ++ '.' :: fraction := by
      rw [Query.ungrouped, List.filter_append, List.filter_cons_of_pos (by decide), hkept]
      rfl
    rw [← h.filter_ungrouped, hcut]
    exact .decimal h.ungrouped hne hfraction

theorem readNumber_eq {s : String} (h : WritesNumeral s.toList n) :
    readNumber s = match Number.ofNumeral? n with
      | some v => .ok (.number v)
      | none => .error (.malformedNumber s) := by
  have hnumber : (numeralOfText? s.toList).bind Number.ofNumeral? = Number.ofNumeral? n := by
    rw [h.numeralOfText?_eq, Option.bind_some]
  unfold readNumber
  cases hn : Number.ofNumeral? n with
  | none => simp [hnumber, hn]
  | some v => simp [hnumber, hn]

end WritesNumeral

theorem lex?_eq_number {c : Char} {cs : List Char} {x : Lexed} {s : String}
    (h : lex? c cs = some x) (hs : x.token = .number s) :
    c.isDigit = true ∧ s.toList = c :: (splitNumber cs).1 := by
  cases starts_of_lex? h with
  | number cs hc =>
    cases hs
    exact ⟨hc, String.toList_ofList⟩
  | comparison cs hc =>
    obtain ⟨op, hop⟩ := lexComparison_token c cs
    rw [hop] at hs
    cases hs
  | _ => cases hs

theorem Lexes.number_of_mem {cs rest : List Char} {ts : List Token} {s : String}
    (h : Lexes cs ts rest) (hs : .number s ∈ ts) :
    ∃ c more, c.isDigit = true ∧ s.toList = c :: (splitNumber more).1 := by
  induction h with
  | done => cases hs
  | blank _ _ ih => exact ih hs
  | @token c cs _ x ts _ hx _ ih =>
    rcases List.mem_cons.1 hs with hs | hs
    · exact ⟨c, cs, lex?_eq_number hx hs.symm⟩
    · exact ih hs

/-- The shape of a number lets it end in separators, but what is split off does not. -/
theorem exists_writesNumeral {c : Char} {more : List Char} {v : Number}
    (h : IsNumber (c :: (splitNumber more).1) v) :
    ∃ n, WritesNumeral (c :: (splitNumber more).1) n := by
  have hsplit := splitNumber_splitNumber more
  generalize (splitNumber more).1 = ds at h hsplit
  generalize hall : c :: ds = all at h
  cases h with
  | @whole d cs _ hd hcs _ =>
    obtain ⟨rfl, rfl⟩ := List.cons.inj hall
    rw [← List.append_nil ds] at hsplit
    exact ⟨_, .whole ((isGrouped_of_splitNumber hcs rfl hsplit).1 c hd)⟩
  | @decimal d cs fraction _ hd hcs hne hfraction _ =>
    obtain ⟨rfl, rfl⟩ := List.cons.inj hall
    exact ⟨_, .decimal ((isGrouped_of_splitNumber hcs rfl hsplit).1 c hd) hne hfraction⟩

theorem readNumber_eq_error {s : String} (h : ∀ v, readNumber s ≠ .ok v) :
    readNumber s = .error (.malformedNumber s) := by
  unfold readNumber at h ⊢
  split
  · next n hn => exact absurd (by rw [hn]) (h (.number n))
  · rfl

theorem Lexes.readNumber_eq_error {cs rest : List Char} {ts : List Token} {s : String}
    (h : Lexes cs ts rest) (hs : .number s ∈ ts) (hnone : ¬∃ n, WritesNumeral s.toList n) :
    readNumber s = .error (.malformedNumber s) := by
  refine Query.readNumber_eq_error fun v hv => hnone ?_
  obtain ⟨n, hn, -⟩ := readNumber_eq_ok_iff.1 hv
  obtain ⟨c, more, -, hlist⟩ := h.number_of_mem hs
  rw [hlist] at hn ⊢
  exact exists_writesNumeral hn

theorem IsCondition.readNumber_eq_ok {ts : List Token} {c : Condition} {s : String}
    (h : IsCondition ts c) (hs : .number s ∈ ts) : ∃ v, readNumber s = .ok v := by
  cases h with
  | @mk w left op noise t right _ hnoise ht =>
    have hmem : Token.number s ∈ noise ∨ .number s = t := by simpa using hs
    rcases hmem with hmem | rfl
    · exact absurd (hnoise _ hmem) (by simp [isNoise])
    · cases ht with
      | number hn => exact ⟨_, readNumber_eq_ok_iff.2 ⟨_, hn, rfl⟩⟩

theorem IsEnd.not_mem_number {es : List Token} (h : IsEnd es) (s : String) :
    .number s ∉ es := by
  cases h <;> simp

theorem IsStatement.readNumber_eq_ok {ts : List Token} {st : Statement} {s : String}
    (h : IsStatement ts st) (hs : .number s ∈ ts) : ∃ v, readNumber s = .ok v := by
  cases h with
  | @mk cs ts us es _ _ _ hcolumns htables hwhere hend =>
    have hlist : ∀ {us : List Token} {ws : List String}, IsList us ws → .number s ∉ us := by
      intro us ws hus hmem
      have hword := hus.words _ hmem
      simp at hword
    have hmem : .number s ∈ us := by
      simpa [hlist hcolumns, hlist htables, hend.not_mem_number s] using hs
    cases hwhere with
    | none => cases hmem
    | some hc => exact hc.readNumber_eq_ok (by simpa using hmem)

theorem readCondition_eq_error {text : List Char} {w s : String} {ref : ColumnRef} {op : Operator}
    {noise more : List Token} {fault : SyntaxFault}
    (htext : Lexes text (.word w :: .operator op :: (noise ++ .number s :: more)) [])
    (hw : IsQualified w ref) (hnoise : ∀ u ∈ noise, isNoise u = true)
    (hs : readNumber s = .error fault) : readCondition text = .error fault := by
  obtain ⟨ls, htokens, hls⟩ := tokenizeFrom_of_lexes htext rfl 0
  obtain ⟨⟨i, token⟩, ls₁, rfl, rfl, hls₁⟩ := List.map_eq_cons_iff.1 hls
  obtain ⟨⟨j, token⟩, ls₂, rfl, rfl, hls₂⟩ := List.map_eq_cons_iff.1 hls₁
  obtain ⟨skipped, ls₃, rfl, rfl, hls₃⟩ := List.map_eq_append_iff.1 hls₂
  obtain ⟨⟨k, token⟩, rest, rfl, rfl, rfl⟩ := List.map_eq_cons_iff.1 hls₃
  have hrun : ∀ x ∈ skipped, isNoise x.token = true :=
    fun x hx => hnoise _ (List.mem_map_of_mem hx)
  have hdrop : (skipped ++ ⟨k, .number s⟩ :: rest).dropWhile (isNoise ·.token) =
      ⟨k, .number s⟩ :: rest := dropWhile_append_stop hrun rfl
  rw [readCondition, checkConditionLength_of_qualified htext hw, ok_bind,
    readTokens_eq_ok_iff.2 htokens, ok_bind, readComparison, readLeft_eq_ok_iff.2 ⟨i, w, rfl, hw⟩,
    ok_bind]
  dsimp only
  rw [readOperator_eq_ok_iff.2 ⟨j, rfl⟩, ok_bind]
  dsimp only
  rw [hdrop, readRight, hs]
  rfl

theorem isQualified_ta : IsQualified "t.a" ⟨"t", "a"⟩ :=
  ⟨by decide, by decide, by decide, by decide, by decide⟩

theorem lexes_equation {cs : List Char} {t : Token} (h : Lexes cs [t] []) :
    Lexes ("t.a = ".toList ++ cs) [.word "t.a", .operator .eq, t] [] := by
  have hcut : "t.a = ".toList ++ cs =
      "t.a".toList ++ (' ' :: (Operator.eq.symbol.toList ++ (' ' :: cs))) := by
    have hhead : "t.a = ".toList = "t.a".toList ++ (' ' :: (Operator.eq.symbol.toList ++ [' '])) := by
      decide +kernel
    rw [hhead]
    simp
  have hblank : isBlank ' ' = true := by decide
  have hstop : isWordChar ' ' = false := by decide +kernel
  have hword : Lexes ("t.a".toList ++ (' ' :: (Operator.eq.symbol.toList ++ (' ' :: cs))))
      [.word "t.a"] (' ' :: (Operator.eq.symbol.toList ++ (' ' :: cs))) :=
    .word ⟨'t', rfl, by decide +kernel⟩ (List.all_eq_true.1 (by decide +kernel))
      (by simpa using hstop)
  rw [hcut]
  exact hword.append (.blank hblank ((Lexes.operator .eq (by simp)).append (.blank hblank h)))

def equationOutcome (text : List Char) : Option Number → Except SyntaxFault Condition
  | some v => .ok ⟨⟨"t", "a"⟩, .eq, .literal (.number v)⟩
  | none => .error (.malformedNumber (.ofList text))

theorem readCondition_equation {text : List Char} {n : Numeral} (h : WritesNumeral text n) :
    readCondition ("t.a = ".toList ++ text) = equationOutcome text (Number.ofNumeral? n) := by
  have hlexes : Lexes ("t.a = ".toList ++ text)
      (.word "t.a" :: .operator .eq :: ([] ++ .number (.ofList text) :: [])) [] :=
    lexes_equation h.lexes
  have hnoise : ∀ u ∈ ([] : List Token), isNoise u = true := by simp
  have hread := WritesNumeral.readNumber_eq (s := .ofList text) (by rwa [String.toList_ofList])
  cases hv : Number.ofNumeral? n with
  | some v =>
    rw [hv] at hread
    obtain ⟨v', hs, heq⟩ := readNumber_eq_ok_iff.1 hread
    obtain rfl := Json.number.inj heq
    have hcondition : IsCondition
        (.word "t.a" :: .operator .eq :: ([] ++ [.number (.ofList text)]))
        ⟨⟨"t", "a"⟩, .eq, .literal (.number v)⟩ := .mk isQualified_ta hnoise (.number hs)
    exact readCondition_eq_ok_iff.2 ⟨_, [], hlexes, hcondition, .bare⟩
  | none =>
    rw [hv] at hread
    exact readCondition_eq_error hlexes isQualified_ta hnoise hread

/-- A number is worth what its digits are, however they are grouped, and one past the range is
refused. A number token that is not written in this way is refused wherever it stands, and by its own
text where it is the right operand. -/
theorem number_literals :
    (∀ cs n, WritesNumeral cs n → ∃ r, (∀ r', n.Denotes r' ↔ r' = r) ∧
      ∀ text, text = cs ∨ text = ungrouped cs →
        readCondition ("t.a = ".toList ++ text) = equationOutcome text r) ∧
    ∀ text ls l s, tokenize text = .ok ls → l ∈ ls → l.token = .number s →
      (¬∃ n, WritesNumeral s.toList n) →
      (∀ rest, readRight (l :: rest) = .error (.malformedNumber s)) ∧
      (∀ w ref op noise more, ls.map Located.token =
        .word w :: .operator op :: (noise ++ .number s :: more) → IsQualified w ref →
        (∀ u ∈ noise, isNoise u = true) → readCondition text = .error (.malformedNumber s)) ∧
      (∀ c, readCondition text ≠ .ok c) ∧ ∀ st, readStatement text ≠ .ok st := by
  refine ⟨fun cs n h => ⟨_, fun r' => Numeral.denotes_iff h.isPlain, fun text htext => ?_⟩, ?_⟩
  · rcases htext with rfl | rfl
    · exact readCondition_equation h
    · exact readCondition_equation h.ungrouped
  · intro text ls l s htokens hl hs hnone
    have hlexes : Lexes text (ls.map Located.token) [] := lexes_of_tokenizeFrom htokens
    have hmem : .number s ∈ ls.map Located.token := hs ▸ List.mem_map_of_mem hl
    have hread := hlexes.readNumber_eq_error hmem hnone
    have hnot : ¬∃ v, readNumber s = .ok v := by simp [hread]
    refine ⟨fun rest => ?_, fun w ref op noise more hls hw hnoise => ?_, fun c hc => ?_,
      fun st hst => ?_⟩
    · obtain ⟨offset, token⟩ := l
      cases hs
      simp only [readRight, hread]
    · rw [hls] at hlexes
      exact readCondition_eq_error hlexes hw hnoise hread
    · obtain ⟨ts, es, hts, hcondition, hend⟩ := readCondition_eq_ok_iff.1 hc
      rw [hts.eq_of_tokenize htokens, List.mem_append] at hmem
      exact hnot (hcondition.readNumber_eq_ok (hmem.resolve_right (hend.not_mem_number s)))
    · obtain ⟨ls', htokens', hstatement⟩ := readStatement_sound hst
      rw [htokens] at htokens'
      cases htokens'
      exact hnot (hstatement.readNumber_eq_ok hmem)

theorem number_literals_grouped :
    readCondition ("t.a = ".toList ++ "18 446744073, 709551615".toList) =
      .ok ⟨⟨"t", "a"⟩, .eq, .literal (.number (.integer 18446744073709551615 (by decide)))⟩ ∧
    readCondition ("t.a = ".toList ++ "18446744073709551615".toList) =
      .ok ⟨⟨"t", "a"⟩, .eq, .literal (.number (.integer 18446744073709551615 (by decide)))⟩ ∧
    readCondition "t.a <, 1.2.3 ;".toList = .error (.malformedNumber "1.2.3") := by
  obtain ⟨hwritten, hother⟩ := number_literals
  have hgrouped : IsGrouped "18 446744073, 709551615".toList := by
    have hcut : "18 446744073, 709551615".toList = ['1', '8'] ++
        ([' '] ++ ("446744073".toList ++ ([',', ' '] ++ "709551615".toList))) := by
      decide +kernel
    have hlast : IsGrouped "709551615".toList :=
      .digits (by decide +kernel) (List.all_eq_true.1 (by decide +kernel))
    rw [hcut]
    exact .more (by decide) (List.all_eq_true.1 (by decide)) (by decide)
      (List.all_eq_true.1 (by decide)) (.more (by decide +kernel)
        (List.all_eq_true.1 (by decide +kernel)) (by decide) (List.all_eq_true.1 (by decide)) hlast)
  obtain ⟨r, hr, hread⟩ := hwritten _ _ (.whole hgrouped)
  obtain rfl := (hr (some (.integer 18446744073709551615 (by decide)))).1
    (.of_value rfl (by decide +kernel) (by decide))
  have hplain : "18446744073709551615".toList = ungrouped "18 446744073, 709551615".toList := by
    decide +kernel
  have htokens : tokenize "t.a <, 1.2.3 ;".toList = .ok [⟨0, .word "t.a"⟩, ⟨4, .operator .lt⟩,
      ⟨5, .comma⟩, ⟨7, .number "1.2.3"⟩, ⟨13, .semicolon⟩] :=
    tokenize_of_tokensWithin (by decide +kernel)
  have hnone : ¬∃ n, WritesNumeral "1.2.3".toList n := by
    intro h
    obtain ⟨n, h⟩ := h
    have hshape : numeralOfText? "1.2.3".toList = none := by decide +kernel
    rw [h.numeralOfText?_eq] at hshape
    cases hshape
  refine ⟨?_, ?_, ?_⟩
  · rw [hread _ (.inl rfl)]
    rfl
  · rw [hread _ (.inr hplain)]
    rfl
  · obtain ⟨-, hcondition, -⟩ := hother _ _ _ "1.2.3" htokens
      (List.mem_of_getElem? (i := 3) rfl) rfl hnone
    exact hcondition _ _ _ [.comma] _ rfl isQualified_ta (by simp [isNoise])

end RowSelect.Query
