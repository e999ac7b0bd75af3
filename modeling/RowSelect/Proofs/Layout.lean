import Mathlib.Data.List.Basic
import RowSelect.Proofs.CaseFolding
import RowSelect.Proofs.Grammar
import RowSelect.Proofs.Numerals
import RowSelect.Query.Execution

/-!
The texts that a statement may be written as. Keywords and names stand in any case of the letters of
ASCII, white space in any amount where it is allowed, and a string in either kind of quotes; whatever
the layout, the text is read back as the statement.
-/

set_option autoImplicit false

namespace RowSelect.Query

open RowSelect.Text

structure IsWord (w : String) : Prop where
  start : ∃ c ∈ w.toList.head?, isWordStart c = true
  chars : ∀ c ∈ w.toList, isWordChar c = true
  lower : lower w.toList = w.toList

def Spells (v : List Char) (w : String) : Prop := v.map Char.toLower = w.toList

def Blank (b : List Char) : Prop := ∀ c ∈ b, isBlank c = true

def Gap (g : List Char) : Prop := g ≠ [] ∧ Blank g

inductive WritesList : List Char → List String → Prop where
  | one {v : List Char} {w : String} (hw : IsWord w) (hkey : w ∉ keywords) (hv : Spells v w) :
      WritesList v [w]
  | more {v b b' cs : List Char} {w : String} {ws : List String} (hw : IsWord w)
      (hkey : w ∉ keywords) (hv : Spells v w) (hb : Blank b) (hb' : Blank b')
      (hrest : WritesList cs ws) : WritesList (v ++ (b ++ ',' :: (b' ++ cs))) (w :: ws)

inductive WritesOperand : List Char → Operand → Prop where
  | column {v : List Char} {w : String} {ref : ColumnRef} (hw : IsWord w) (href : IsQualified w ref)
      (hv : Spells v w) : WritesOperand v (.column ref)
  | string {quote : Char} {s : String} (hquote : isQuote quote = true) (hs : quote ∉ s.toList) :
      WritesOperand (quote :: (s.toList ++ [quote])) (.literal (.string s))
  | integer {n : Nat} (hn : -0x8000000000000000 ≤ (n : Int) ∧ (n : Int) < 0x10000000000000000) :
      WritesOperand (Nat.toDigits 10 n) (.literal (.number (.integer n hn)))

/-- A character that may stand, without meaning, before the right operand. -/
def isFiller (c : Char) : Bool := !isQuote c && !isAlphabetic c && c != '_' && !c.isDigit

/-- What may stand between an operator and its right operand. Only white space comes right behind the
operator, which would take an equals sign. -/
inductive IsFilling : List Char → Prop where
  | blank {b : List Char} (hb : Blank b) : IsFilling b
  | noise {c : Char} {cs : List Char} (hc : isBlank c = true) (hcs : ∀ d ∈ cs, isFiller d = true) :
      IsFilling (c :: cs)

inductive WritesCondition : List Char → Condition → Prop where
  | mk {v b f r : List Char} {w : String} {left : ColumnRef} {right : Operand} (op : Operator)
      (hw : IsWord w) (hleft : IsQualified w left) (hv : Spells v w) (hb : Blank b)
      (hf : IsFilling f) (hr : WritesOperand r right) :
      WritesCondition (v ++ (b ++ (op.symbol.toList ++ (f ++ r)))) ⟨left, op, right⟩

inductive WritesWhere : List Char → Option Condition → Prop where
  | none : WritesWhere [] none
  | some {g v g' cs : List Char} {c : Condition} (hg : Gap g) (hv : Spells v "where") (hg' : Gap g')
      (hc : WritesCondition cs c) : WritesWhere (g ++ (v ++ (g' ++ cs))) (some c)

inductive WritesEnd : List Char → Prop where
  | bare : WritesEnd []
  | semicolon {b : List Char} (hb : Blank b) : WritesEnd (b ++ [';'])

inductive WritesStatement : List Char → Statement → Prop where
  | mk {v g cs g' v' g'' ts us es : List Char} {columns tables : List String}
      {condition : Option Condition} (hv : Spells v "select") (hg : Gap g)
      (hcolumns : WritesList cs columns) (hg' : Gap g') (hv' : Spells v' "from") (hg'' : Gap g'')
      (htables : WritesList ts tables) (hwhere : WritesWhere us condition) (hend : WritesEnd es) :
      WritesStatement (v ++ (g ++ (cs ++ (g' ++ (v' ++ (g'' ++ (ts ++ (us ++ es))))))))
        ⟨columns, tables, condition⟩

inductive Writes : String → Statement → Prop where
  | mk {text : String} {b cs b' : List Char} {s : Statement} (htext : text.toList = b ++ (cs ++ b'))
      (hb : Blank b) (hb' : Blank b') (hcs : WritesStatement cs s) : Writes text s

theorem isWord_keyword {w : String} (h : w ∈ keywords) : IsWord w := by
  have hcases : w = "select" ∨ w = "from" ∨ w = "where" := by simpa [keywords] using h
  rcases hcases with rfl | rfl | rfl
  · exact ⟨⟨'s', rfl, by decide +kernel⟩, List.all_eq_true.1 (by decide +kernel), by decide +kernel⟩
  · exact ⟨⟨'f', rfl, by decide +kernel⟩, List.all_eq_true.1 (by decide +kernel), by decide +kernel⟩
  · exact ⟨⟨'w', rfl, by decide +kernel⟩, List.all_eq_true.1 (by decide +kernel), by decide +kernel⟩

namespace Spells

variable {v : List Char} {w : String}

theorem mem_toLower (hv : Spells v w) {c : Char} (hc : c ∈ v) : c.toLower ∈ w.toList :=
  hv ▸ List.mem_map_of_mem hc

theorem chars (hv : Spells v w) (hw : IsWord w) : ∀ c ∈ v, isWordChar c = true :=
  fun _ hc => isWordChar_of_toLower (hw.chars _ (hv.mem_toLower hc))

theorem lowerChar_eq (hv : Spells v w) (hw : IsWord w) {c : Char} (hc : c ∈ v) :
    lowerChar c = [c.toLower] :=
  lowerChar_eq_toLower (lowerChar_of_lowerFrom_eq hw.lower _ (hv.mem_toLower hc)).2

theorem flatMap_lowerChar (hv : Spells v w) (hw : IsWord w) :
    v.flatMap lowerChar = w.toList := by
  rw [← hv, List.map_eq_flatMap]
  exact List.flatMap_congr fun c hc => hv.lowerChar_eq hw hc

theorem plain (hv : Spells v w) (hw : IsWord w) : Plain v := by
  intro c hc
  refine ⟨not_isQuote_of_isWordChar (hv.chars hw c hc), ?_⟩
  intro he
  have hsigma := (lowerChar_of_lowerFrom_eq hw.lower _ (hv.mem_toLower hc)).1
  rw [he] at hsigma
  exact hsigma rfl

end Spells

def Reads (cs : List Char) (ts : List Token) : Prop := ∃ ds, Folds cs ds ∧ Lexes ds ts []

def Stops (cs : List Char) : Prop := ∀ c ∈ cs.head?, isWordChar c = false

theorem stops_nil : Stops [] := by
  simp [Stops]

theorem stops_cons {c : Char} (cs : List Char) (h : isWordChar c = false) : Stops (c :: cs) := by
  simpa [Stops] using h

theorem not_isWordChar_of_isBlank {c : Char} (h : isBlank c = true) : isWordChar c = false := by
  cases hc : isWordChar c with
  | false => rfl
  | true =>
    rw [not_isBlank_of_isWordChar hc] at h
    cases h

theorem Stops.blank {b cs : List Char} (hb : Blank b) (h : Stops cs) : Stops (b ++ cs) := by
  cases b with
  | nil => exact h
  | cons c b => exact stops_cons _ (not_isWordChar_of_isBlank (hb c (List.mem_cons_self ..)))

theorem Gap.stops {g : List Char} (hg : Gap g) (cs : List Char) : Stops (g ++ cs) := by
  obtain ⟨c, g, rfl⟩ := List.exists_cons_of_ne_nil hg.1
  exact stops_cons _ (not_isWordChar_of_isBlank (hg.2 c (List.mem_cons_self ..)))

theorem Stops.folds {cs ds : List Char} (hfold : Folds cs ds) (h : Stops cs) : Stops ds := by
  cases cs with
  | nil =>
    rw [hfold.eq_nil]
    exact stops_nil
  | cons c cs =>
    have hc : isWordChar c = false := h c rfl
    have hletter : isAlphabetic c = false := by
      cases hletter : isAlphabetic c with
      | false => rfl
      | true => simp [isWordChar, hletter] at hc
    have hhead := hfold.head?_eq rfl hletter
    intro d hd
    rw [hhead] at hd
    obtain rfl : c = d := by simpa using hd
    exact hc

namespace Reads

variable {cs : List Char} {ts : List Token}

theorem nil : Reads [] [] := ⟨[], .plain (by simp [Plain]), .done []⟩

theorem inert {xs : List Char} {us : List Token} (h : Reads cs ts) (hx : Inert xs)
    (hlex : ∀ ds, Folds cs ds → Lexes (xs ++ ds) us ds) : Reads (xs ++ cs) (us ++ ts) := by
  obtain ⟨ds, hfold, hds⟩ := h
  have hprepend := hfold.prepend hx.plain
  rw [hx.flatMap_lowerChar] at hprepend
  exact ⟨xs ++ ds, hprepend, (hlex ds hfold).append hds⟩

theorem blank {b : List Char} (h : Reads cs ts) (hb : Blank b) : Reads (b ++ cs) ts :=
  h.inert (.blanks hb) fun _ _ => .blanks hb

theorem word {v : List Char} {w : String} (h : Reads cs ts) (hw : IsWord w) (hv : Spells v w)
    (hstop : Stops cs) : Reads (v ++ cs) (.word w :: ts) := by
  obtain ⟨ds, hfold, hds⟩ := h
  have hprepend := hfold.prepend (hv.plain hw)
  rw [hv.flatMap_lowerChar hw] at hprepend
  have hlex := Lexes.word hw.start hw.chars (hstop.folds hfold)
  exact ⟨w.toList ++ ds, hprepend, hlex.append hds⟩

theorem comma (h : Reads cs ts) : Reads (',' :: cs) (.comma :: ts) := by
  have hinert : Inert [','] := .of_all (by decide +kernel)
  exact h.inert hinert fun ds _ => .comma ds

theorem semicolon (h : Reads cs ts) : Reads (';' :: cs) (.semicolon :: ts) := by
  have hinert : Inert [';'] := .of_all (by decide +kernel)
  exact h.inert hinert fun ds _ => .semicolon ds

theorem operator (op : Operator) (h : Reads cs ts)
    (hnext : ∀ ds, Folds cs ds → ds.head? ≠ some '=') :
    Reads (op.symbol.toList ++ cs) (.operator op :: ts) := by
  have hinert : Inert op.symbol.toList := .of_all (by cases op <;> decide +kernel)
  exact h.inert hinert fun ds hfold => .operator op (hnext ds hfold)

theorem literal {quote : Char} {s : String} (h : Reads cs ts) (hquote : isQuote quote = true)
    (hs : quote ∉ s.toList) (hcs : Plain cs) :
    Reads (quote :: (s.toList ++ quote :: cs)) (.literal s :: ts) := by
  obtain ⟨ds, hfold, hds⟩ := h
  have hnil : Plain [] := by simp [Plain]
  have hfolded : Folds (quote :: (s.toList ++ quote :: cs))
      (quote :: (s.toList ++ quote :: cs.flatMap lowerChar)) :=
    @Folds.literal [] s.toList cs quote hnil hquote hs hcs
  rw [hfold.unique (.plain hcs)] at hds
  exact ⟨_, hfolded, (Lexes.literal _ hquote hs).append hds⟩

theorem number {digits : List Char} (h : Reads cs ts) (hne : digits ≠ [])
    (hdigits : ∀ c ∈ digits, c.isDigit = true) (hcs : Inert cs)
    (hstop : ∀ c ∈ cs, c.isDigit = false ∧ c ≠ '.') :
    Reads (digits ++ cs) (.number (.ofList digits) :: ts) := by
  refine h.inert (.digits hdigits) fun ds hfold => .number hne hdigits ?_
  rw [hfold.unique (.plain hcs.plain), hcs.flatMap_lowerChar]
  exact hstop

theorem head?_ne {t : Token} (h : Reads cs (t :: ts)) (ht : ∀ op, t ≠ .operator op) :
    ∀ ds, Folds cs ds → ds.head? ≠ some '=' := by
  intro ds hfold hhead
  obtain ⟨ds', hfold', hlex⟩ := h
  obtain rfl := hfold.unique hfold'
  obtain ⟨rest, rfl⟩ := List.head?_eq_some_iff.1 hhead
  cases hlex with
  | blank hc => exact absurd hc (by decide)
  | token _ hx =>
    cases hx
    exact ht .eq rfl

end Reads

theorem lex?_of_isFiller {c : Char} (cs : List Char) (h : isFiller c = true) :
    ∃ x, lex? c cs = some x ∧ isNoise x.token = true ∧ (x.rest = cs ∨ cs = '=' :: x.rest) := by
  simp only [isFiller, Bool.and_eq_true, Bool.not_eq_true', bne_iff_ne] at h
  obtain ⟨⟨⟨hquote, hletter⟩, hline⟩, hdigit⟩ := h
  by_cases hcomparison : c = '=' ∨ c = '<' ∨ c = '>'
  · have hlex : lex? c cs = some (lexComparison c cs) := by
      rcases hcomparison with rfl | rfl | rfl <;> rfl
    refine ⟨lexComparison c cs, hlex, ?_⟩
    unfold lexComparison
    split <;> simp [isNoise]
  · by_cases hcomma : c = ','
    · subst hcomma
      exact ⟨_, rfl, rfl, .inl rfl⟩
    · by_cases hsemicolon : c = ';'
      · subst hsemicolon
        exact ⟨_, rfl, rfl, .inl rfl⟩
      · refine ⟨⟨.other c, [c], cs⟩, ?_, rfl, .inl rfl⟩
        simp [lex?, isWordStart, hcomma, hsemicolon, hcomparison, hquote, hletter, hline, hdigit]

/-- Fillers are noise. Since `<` takes an equals sign behind it, the induction is on the fillers and
on those behind the next one at once. -/
theorem Lexes.fillers {cs rest : List Char} (hcs : ∀ c ∈ cs, isFiller c = true)
    (hrest : rest.head? ≠ some '=') :
    ∃ us, (∀ u ∈ us, isNoise u = true) ∧ Lexes (cs ++ rest) us rest := by
  have hboth : (∃ us, (∀ u ∈ us, isNoise u = true) ∧ Lexes (cs ++ rest) us rest) ∧
      ∃ us, (∀ u ∈ us, isNoise u = true) ∧ Lexes (cs.tail ++ rest) us rest := by
    induction cs with
    | nil => exact ⟨⟨[], by simp, .done rest⟩, [], by simp, .done rest⟩
    | cons c cs ih =>
      obtain ⟨hall, htail⟩ := ih fun d hd => hcs d (List.mem_cons_of_mem _ hd)
      refine ⟨?_, hall⟩
      cases hblank : isBlank c with
      | true =>
        obtain ⟨us, hus, hlex⟩ := hall
        exact ⟨us, hus, .blank hblank hlex⟩
      | false =>
        obtain ⟨x, hx, hnoise, hmore⟩ :=
          lex?_of_isFiller (cs ++ rest) (hcs c (List.mem_cons_self ..))
        have hgo : ∃ us, (∀ u ∈ us, isNoise u = true) ∧ Lexes x.rest us rest := by
          rcases hmore with hmore | hmore
          · rw [hmore]
            exact hall
          · cases cs with
            | nil =>
              rw [List.nil_append] at hmore
              rw [hmore] at hrest
              exact absurd rfl hrest
            | cons d cs =>
              rw [List.cons_append] at hmore
              rw [← (List.cons.inj hmore).2]
              exact htail
        obtain ⟨us, hus, hlex⟩ := hgo
        exact ⟨x.token :: us, by simpa [hnoise] using hus, .token hblank hx hlex⟩
  exact hboth.1

theorem inert_noise {c : Char} {cs : List Char} (hc : isBlank c = true)
    (hcs : ∀ d ∈ cs, isFiller d = true) : Inert (c :: cs) := by
  intro d hd
  rcases List.mem_cons.1 hd with rfl | hd
  · have hblank : Inert [d] := .blanks (by simpa using hc)
    exact hblank d (List.mem_cons_self ..)
  · have hfiller := hcs d hd
    simp only [isFiller, Bool.and_eq_true, Bool.not_eq_true'] at hfiller
    exact hfiller.1.1

theorem head?_ne_of_isBlank {c : Char} (hc : isBlank c = true) (cs : List Char) :
    ∀ ds, Folds (c :: cs) ds → ds.head? ≠ some '=' := by
  intro ds hfold hequals
  rw [hfold.head?_eq rfl (not_isAlphabetic_of_isBlank hc)] at hequals
  obtain rfl : c = '=' := by simpa using hequals
  exact absurd hc (by decide)

theorem Reads.filling {cs f : List Char} {ts : List Token} (h : Reads cs ts) (hf : IsFilling f)
    (hnext : ∀ ds, Folds cs ds → ds.head? ≠ some '=') :
    ∃ us, (∀ u ∈ us, isNoise u = true) ∧ Reads (f ++ cs) (us ++ ts) ∧
      ∀ ds, Folds (f ++ cs) ds → ds.head? ≠ some '=' := by
  cases hf with
  | blank hf =>
    refine ⟨[], by simp, h.blank hf, ?_⟩
    cases f with
    | nil => exact hnext
    | cons c f => exact head?_ne_of_isBlank (hf c (List.mem_cons_self ..)) _
  | @noise c f hc hcs =>
    obtain ⟨ds, hfold, hds⟩ := h
    have hinert := inert_noise hc hcs
    have hprepend := hfold.prepend hinert.plain
    rw [hinert.flatMap_lowerChar] at hprepend
    obtain ⟨us, hus, hlex⟩ := Lexes.fillers hcs (hnext ds hfold)
    exact ⟨us, hus, ⟨_, hprepend, (Lexes.blank hc hlex).append hds⟩, head?_ne_of_isBlank hc _⟩

theorem Reads.list {cs rest : List Char} {ws : List String} {ts : List Token}
    (hcs : WritesList cs ws) (h : Reads rest ts) (hstop : Stops rest) :
    ∃ us, IsList us ws ∧ Reads (cs ++ rest) (us ++ ts) := by
  induction hcs with
  | @one v w hw hkey hv => exact ⟨[.word w], .one hkey, h.word hw hv hstop⟩
  | @more v b b' cs w ws hw hkey hv hb hb' _ ih =>
    obtain ⟨us, hus, hread⟩ := ih
    have hcomma : Stops (',' :: (b' ++ (cs ++ rest))) := stops_cons _ (by decide +kernel)
    have hmore := ((hread.blank hb').comma.blank hb).word hw hv (.blank hb hcomma)
    refine ⟨.word w :: .comma :: us, .more hkey hus, ?_⟩
    simpa only [List.append_assoc, List.cons_append] using hmore

namespace WritesEnd

variable {es : List Char}

theorem inert (h : WritesEnd es) : Inert es := by
  cases h with
  | bare => simp [Inert]
  | @semicolon b hb =>
    intro c hc
    rcases List.mem_append.1 hc with hc | hc
    · exact Inert.blanks hb c hc
    · obtain rfl := List.mem_singleton.1 hc
      decide +kernel

theorem reads (h : WritesEnd es) : ∃ ts, IsEnd ts ∧ Reads es ts := by
  cases h with
  | bare => exact ⟨[], .bare, .nil⟩
  | semicolon hb => exact ⟨[.semicolon], .semicolon, Reads.nil.semicolon.blank hb⟩

theorem stops (h : WritesEnd es) : Stops es := by
  cases h with
  | bare => exact stops_nil
  | semicolon hb => exact .blank hb (stops_cons _ (by decide +kernel))

theorem stops_number (h : WritesEnd es) : ∀ c ∈ es, c.isDigit = false ∧ c ≠ '.' := by
  cases h with
  | bare => simp
  | @semicolon b hb =>
    intro c hc
    rcases List.mem_append.1 hc with hc | hc
    · have hblank := hb c hc
      constructor
      · cases hdigit : c.isDigit with
        | false => rfl
        | true =>
          rw [not_isBlank_of_isDigit hdigit] at hblank
          cases hblank
      · intro he
        rw [he] at hblank
        exact absurd hblank (by decide)
    · obtain rfl := List.mem_singleton.1 hc
      decide

end WritesEnd

theorem isNumber_toDigits {n : Nat}
    (hn : -0x8000000000000000 ≤ (n : Int) ∧ (n : Int) < 0x10000000000000000) :
    IsNumber (Nat.toDigits 10 n) (.integer n hn) := by
  have hdigits := isDigit_toDigits n
  have hvalue := digitsValue_toDigits n
  have hnumeral : Number.ofNumeral? ⟨false, Nat.toDigits 10 n, none, none⟩ =
      some (.integer n hn) := by
    have hlt : n < 0x10000000000000000 := by omega
    simp [Number.ofNumeral?, Number.ofNumeralBy?, Number.ofInt?, Numeral.isWhole, hvalue, hlt, hn]
  have hfilter : (Nat.toDigits 10 n).filter Char.isDigit = Nat.toDigits 10 n :=
    List.filter_eq_self.2 hdigits
  rw [← hfilter] at hnumeral
  cases hcs : Nat.toDigits 10 n with
  | nil => exact absurd hcs Nat.toDigits_ne_nil
  | cons d ds =>
    rw [hcs] at hdigits hnumeral
    have hall : ∀ c ∈ ds, (c.isDigit || isSeparator c) = true := by
      intro c hc
      rw [hdigits c (List.mem_cons_of_mem _ hc), Bool.true_or]
    exact .whole (hdigits d (List.mem_cons_self ..)) hall hnumeral

theorem Reads.operand {r es : List Char} {right : Operand} {ts : List Token}
    (hr : WritesOperand r right) (h : Reads es ts) (hend : WritesEnd es) :
    ∃ t, IsOperand t right ∧ Reads (r ++ es) (t :: ts) := by
  cases hr with
  | @column v w ref hw href hv =>
    exact ⟨.word w, .column href, h.word hw hv hend.stops⟩
  | @string quote s hquote hs =>
    have hread := h.literal hquote hs hend.inert.plain
    refine ⟨.literal s, .string s, ?_⟩
    simpa only [List.append_assoc, List.cons_append, List.nil_append] using hread
  | @integer n hn =>
    have hread := h.number Nat.toDigits_ne_nil (isDigit_toDigits n) hend.inert hend.stops_number
    refine ⟨_, .number ?_, hread⟩
    rw [String.toList_ofList]
    exact isNumber_toDigits hn

theorem IsOperand.ne_operator {t : Token} {right : Operand} (h : IsOperand t right)
    (op : Operator) : t ≠ .operator op := by
  cases h <;> simp

theorem stops_operator (op : Operator) (cs : List Char) : Stops (op.symbol.toList ++ cs) := by
  cases op <;> exact stops_cons _ (by decide +kernel)

theorem Reads.condition {cs es : List Char} {c : Condition} {ts : List Token}
    (hcs : WritesCondition cs c) (h : Reads es ts) (hend : WritesEnd es) :
    ∃ us, IsCondition us c ∧ Reads (cs ++ es) (us ++ ts) := by
  cases hcs with
  | @mk v b f r w left right op hw hleft hv hb hf hr =>
    obtain ⟨t, ht, hright⟩ := Reads.operand hr h hend
    obtain ⟨us, hus, hnoise, hnext⟩ := hright.filling hf (hright.head?_ne ht.ne_operator)
    have hop := hnoise.operator op hnext
    have hall := (hop.blank hb).word hw hv (.blank hb (stops_operator op _))
    refine ⟨.word w :: .operator op :: (us ++ [t]), .mk hleft hus ht, ?_⟩
    simpa only [List.append_assoc, List.cons_append, List.nil_append] using hall

theorem Reads.where {us es : List Char} {c : Option Condition} {ts : List Token}
    (hus : WritesWhere us c) (h : Reads es ts) (hend : WritesEnd es) :
    ∃ vs, IsWhere vs c ∧ Reads (us ++ es) (vs ++ ts) ∧ Stops (us ++ es) := by
  cases hus with
  | none => exact ⟨[], .none, h, hend.stops⟩
  | @some g v g' cs c hg hv hg' hc =>
    obtain ⟨vs, hvs, hread⟩ := Reads.condition hc h hend
    have hword := (hread.blank hg'.2).word (isWord_keyword (by decide)) hv (hg'.stops _)
    refine ⟨.word "where" :: vs, .some hvs, ?_, ?_⟩
    · simpa only [List.append_assoc, List.cons_append] using hword.blank hg.2
    · rw [List.append_assoc]
      exact hg.stops _

theorem reads_of_writesStatement {cs : List Char} {s : Statement} (h : WritesStatement cs s) :
    ∃ ts, IsStatement ts s ∧ Reads cs ts := by
  cases h with
  | mk hv hg hcolumns hg' hv' hg'' htables hwhere hend =>
    obtain ⟨es, hes, hread⟩ := hend.reads
    obtain ⟨us, hus, hread, hstop⟩ := Reads.where hwhere hread hend
    obtain ⟨ts, hts, hread⟩ := Reads.list htables hread hstop
    have hfrom := (hread.blank hg''.2).word (isWord_keyword (by decide)) hv' (hg''.stops _)
    obtain ⟨cs, hcs, hread⟩ := Reads.list hcolumns (hfrom.blank hg'.2) (hg'.stops _)
    have hselect := (hread.blank hg.2).word (isWord_keyword (by decide)) hv (hg.stops _)
    exact ⟨_, .mk hcs hts hus hes, hselect⟩

theorem Spells.ne_nil {v : List Char} {w : String} (hv : Spells v w) (hw : IsWord w) : v ≠ [] := by
  obtain ⟨c, hc, -⟩ := hw.start
  intro he
  rw [← hv, he] at hc
  cases hc

def EndsSolid (cs : List Char) : Prop := ∃ c ∈ cs.getLast?, isBlank c = false

namespace EndsSolid

variable {xs ys : List Char}

theorem of_all (hne : xs ≠ []) (h : ∀ c ∈ xs, isBlank c = false) : EndsSolid xs :=
  ⟨xs.getLast hne, List.getLast?_eq_some_getLast hne, h _ (List.getLast_mem hne)⟩

theorem append (xs : List Char) (h : EndsSolid ys) : EndsSolid (xs ++ ys) := by
  obtain ⟨c, hc, hsolid⟩ := h
  refine ⟨c, ?_, hsolid⟩
  rw [Option.mem_def] at hc ⊢
  rw [List.getLast?_append, hc, Option.some_or]

theorem append_of_nil_or (hx : EndsSolid xs) (hy : ys = [] ∨ EndsSolid ys) :
    EndsSolid (xs ++ ys) := by
  rcases hy with rfl | hy
  · rwa [List.append_nil]
  · exact hy.append xs

theorem of_spells {v : List Char} {w : String} (hv : Spells v w) (hw : IsWord w) : EndsSolid v :=
  of_all (hv.ne_nil hw) fun c hc => not_isBlank_of_isWordChar (hv.chars hw c hc)

theorem of_writesList {cs : List Char} {ws : List String} (h : WritesList cs ws) :
    EndsSolid cs := by
  induction h with
  | one hw _ hv => exact of_spells hv hw
  | @more v b b' cs w ws _ _ _ _ _ _ ih =>
    exact .append v (.append b (.append [','] (.append b' ih)))

theorem of_writesOperand {cs : List Char} {right : Operand} (h : WritesOperand cs right) :
    EndsSolid cs := by
  cases h with
  | column hw _ hv => exact of_spells hv hw
  | @string quote s hquote _ =>
    have hlast : EndsSolid [quote] :=
      ⟨quote, rfl, not_isBlank_of_isQuote hquote⟩
    exact .append [quote] (.append s.toList hlast)
  | @integer n _ =>
    exact of_all Nat.toDigits_ne_nil fun c hc => not_isBlank_of_isDigit (isDigit_toDigits n c hc)

theorem of_writesWhere {us : List Char} {c : Option Condition} (h : WritesWhere us c) :
    us = [] ∨ EndsSolid us := by
  cases h with
  | none => exact .inl rfl
  | @some g v g' _ _ _ _ _ hc =>
    cases hc with
    | @mk v' b f r _ _ _ op _ _ _ _ _ hr =>
      right
      have hcondition := (((of_writesOperand hr).append f).append op.symbol.toList).append b
      exact .append g (.append v (.append g' (.append v' hcondition)))

theorem of_writesEnd {es : List Char} (h : WritesEnd es) : es = [] ∨ EndsSolid es := by
  cases h with
  | bare => exact .inl rfl
  | @semicolon b _ =>
    right
    have hlast : EndsSolid [';'] := ⟨';', rfl, by decide⟩
    exact hlast.append b

theorem of_writesStatement {cs : List Char} {s : Statement} (h : WritesStatement cs s) :
    EndsSolid cs := by
  cases h with
  | @mk v g cs g' v' g'' ts us es _ _ _ _ _ _ _ _ _ htables hwhere hend =>
    have htail := of_writesWhere hwhere
    have hend' := of_writesEnd hend
    have htables' : EndsSolid (ts ++ (us ++ es)) := by
      rw [← List.append_assoc]
      exact ((of_writesList htables).append_of_nil_or htail).append_of_nil_or hend'
    exact .append v (.append g (.append cs (.append g' (.append v' (.append g'' htables')))))

end EndsSolid

theorem WritesStatement.start {cs : List Char} {s : Statement} (h : WritesStatement cs s) :
    ∃ c ∈ cs.head?, isBlank c = false := by
  cases h with
  | @mk v _ _ _ _ _ _ _ _ _ _ _ hv =>
    have hw : IsWord "select" := isWord_keyword (by decide)
    obtain ⟨c, v, rfl⟩ := List.exists_cons_of_ne_nil (hv.ne_nil hw)
    exact ⟨c, rfl, not_isBlank_of_isWordChar (hv.chars hw c (List.mem_cons_self ..))⟩

/-- A text that a statement is written as is read as that statement, whatever its layout. -/
theorem parse_of_writes {text : String} {s : Statement} (h : Writes text s) :
    parse text = .ok s := by
  obtain ⟨htext, hb, hb', hcs⟩ := h
  obtain ⟨ts, hts, ds, hfold, hlex⟩ := reads_of_writesStatement hcs
  have htrim := trim_blanks hb hb' hcs.start (EndsSolid.of_writesStatement hcs)
  obtain ⟨ls, hls, htokens⟩ := tokenizeFrom_of_lexes hlex rfl 0
  rw [← htokens] at hts
  rw [parse, read, htext, htrim, foldCase_of_folds hfold]
  exact readStatement_complete hls hts

theorem writes_untidy : Writes " SELECT A.x ,ß\tFrom t WHERE t.K< <=. \"It's\" ;\n"
    ⟨["a.x", "ß"], ["t"], some ⟨⟨"t", "k"⟩, .lt, .literal (.string "It's")⟩⟩ := by
  have ha : IsWord "a.x" :=
    ⟨⟨'a', rfl, by decide +kernel⟩, List.all_eq_true.1 (by decide +kernel), by decide +kernel⟩
  have hs : IsWord "ß" :=
    ⟨⟨'ß', rfl, by decide +kernel⟩, List.all_eq_true.1 (by decide +kernel), by decide +kernel⟩
  have ht : IsWord "t" :=
    ⟨⟨'t', rfl, by decide +kernel⟩, List.all_eq_true.1 (by decide +kernel), by decide +kernel⟩
  have hk : IsWord "t.k" :=
    ⟨⟨'t', rfl, by decide +kernel⟩, List.all_eq_true.1 (by decide +kernel), by decide +kernel⟩
  have hleft : IsQualified "t.k" ⟨"t", "k"⟩ := ofWord?_eq_some_iff.1 (by decide +kernel)
  have hgap : Gap [' '] := ⟨by simp, List.all_eq_true.1 (by decide)⟩
  have htab : Gap ['\t'] := ⟨by simp, List.all_eq_true.1 (by decide)⟩
  have hnone : Blank [] := by simp [Blank]
  have hcolumns : WritesList "A.x ,ß".toList ["a.x", "ß"] :=
    @WritesList.more "A.x".toList [' '] [] "ß".toList "a.x" ["ß"] ha (by decide) rfl hgap.2 hnone
      (.one hs (by decide) rfl)
  have htables : WritesList "t".toList ["t"] := .one ht (by decide) rfl
  have hright : WritesOperand "\"It's\"".toList (.literal (.string "It's")) :=
    @WritesOperand.string '"' "It's" (by decide) (by decide)
  have hcondition : WritesCondition "t.K< <=. \"It's\"".toList
      ⟨⟨"t", "k"⟩, .lt, .literal (.string "It's")⟩ :=
    @WritesCondition.mk "t.K".toList [] " <=. ".toList "\"It's\"".toList "t.k" _ _ .lt hk hleft rfl
      hnone (.noise (by decide) (List.all_eq_true.1 (by decide +kernel))) hright
  have hstatement := @WritesStatement.mk "SELECT".toList [' '] "A.x ,ß".toList ['\t'] "From".toList [' ']
    "t".toList _ _ _ _ _ rfl hgap hcolumns htab rfl hgap htables
    (.some hgap (rfl : Spells "WHERE".toList "where") hgap hcondition) (.semicolon hgap.2)
  exact @Writes.mk _ [' '] _ ['\n'] _ rfl hgap.2 (List.all_eq_true.1 (by decide)) hstatement

theorem parse_of_writes_untidy : parse " SELECT A.x ,ß\tFrom t WHERE t.K< <=. \"It's\" ;\n" =
    .ok ⟨["a.x", "ß"], ["t"], some ⟨⟨"t", "k"⟩, .lt, .literal (.string "It's")⟩⟩ :=
  parse_of_writes writes_untidy

end RowSelect.Query
