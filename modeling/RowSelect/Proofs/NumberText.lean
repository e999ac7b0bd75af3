import RowSelect.Json.Lexeme
import RowSelect.Proofs.ShortestDecimals

/-!
Numbers are read back from their texts: a text is a numeral that stands for the number it was
written for.
-/

set_option autoImplicit false

namespace RowSelect

namespace Json

inductive IsPower : List Char → Option Int → Prop where
  | none : IsPower [] none
  | power {cs : List Char} {e : Int} (h : exponent? cs = some e) : IsPower ('e' :: cs) (some e)

section Numerals

variable {negative : Bool} {whole ds es : List Char} {power : Option Int}

theorem IsPower.stops (h : IsPower es power) : ∀ c ∈ es.head?, c.isDigit = false := by
  cases h with
  | none => simp
  | power => simp

theorem takeWhile_digits (hdigits : ∀ c ∈ ds, c.isDigit = true)
    (hes : ∀ c ∈ es.head?, c.isDigit = false) :
    (ds ++ es).takeWhile Char.isDigit = ds ∧ (ds ++ es).dropWhile Char.isDigit = es := by
  obtain ⟨htake, hdrop⟩ := cut_append ds hes
  rw [htake, hdrop, List.takeWhile_eq_self_iff.2 hdigits, List.dropWhile_eq_nil_iff.2 hdigits]
  exact ⟨rfl, rfl⟩

theorem negative_of_numeral? {cs : List Char} {n : Numeral} (h : numeral? cs = some n) :
    n.negative = (cs.head? == some '-') := by
  unfold numeral? at h
  generalize (cs.head? == some '-') = negative at h ⊢
  dsimp only at h
  split_ifs at h
  all_goals first
    | exact (Option.some.inj h) ▸ rfl
    | obtain ⟨e, -, rfl⟩ := Option.map_eq_some_iff.1 h
      rfl

theorem numeral?_minus {cs : List Char} (h : cs.head? ≠ some '-') :
    numeral? ('-' :: cs) = (numeral? cs).map fun n => { n with negative := true } := by
  have hsign : (cs.head? == some '-') = false := by simpa using h
  unfold numeral?
  simp only [List.head?_cons, beq_self_eq_true, if_true, List.drop_one, List.tail_cons, hsign,
    Bool.false_eq_true, if_false]
  split_ifs
  · rfl
  · cases exponent? _ <;> rfl
  · rfl
  · rfl
  · cases exponent? _ <;> rfl
  · rfl

structure IsWhole (ds : List Char) : Prop where
  ne_nil : ds ≠ []
  digits : ∀ c ∈ ds, c.isDigit = true
  zero : ds.head? = some '0' → ds.length = 1

theorem IsWhole.unsigned (h : IsWhole whole) : ((whole ++ es).head? == some '-') = false := by
  obtain ⟨d, ds, rfl⟩ := List.exists_cons_of_ne_nil h.ne_nil
  refine beq_eq_false_iff_ne.2 fun he => ?_
  obtain rfl := Option.some.inj he
  exact absurd (h.digits _ (List.mem_cons_self ..)) (by decide)

theorem numeral?_whole (h : IsWhole whole) (hes : IsPower es power) :
    numeral? (whole ++ es) = some ⟨false, whole, none, power⟩ := by
  obtain ⟨htake, hdrop⟩ := takeWhile_digits h.digits hes.stops
  have hpoint : (es.head? == some '.') = false := by cases hes <;> rfl
  unfold numeral?
  simp only [h.unsigned, Bool.false_eq_true, if_false, htake, hdrop, hpoint]
  cases hes with
  | none => simpa [h.ne_nil] using h.zero
  | power hpower => simpa [h.ne_nil, hpower] using h.zero

theorem numeral?_point (h : IsWhole whole) (hne : ds ≠ []) (hds : ∀ c ∈ ds, c.isDigit = true)
    (hes : IsPower es power) :
    numeral? (whole ++ '.' :: (ds ++ es)) = some ⟨false, whole, some ds, power⟩ := by
  have hstop : ∀ c ∈ ('.' :: (ds ++ es)).head?, c.isDigit = false := by simp
  obtain ⟨htake, hdrop⟩ := takeWhile_digits h.digits hstop
  obtain ⟨htakeds, hdropds⟩ := takeWhile_digits hds hes.stops
  unfold numeral?
  simp only [h.unsigned, Bool.false_eq_true, if_false, htake, hdrop, List.head?_cons,
    beq_self_eq_true, if_true, List.drop_one, List.tail_cons, htakeds, hdropds]
  cases hes with
  | none => simpa [h.ne_nil, hne] using h.zero
  | power hpower => simpa [h.ne_nil, hne, hpower] using h.zero

theorem exponent?_digits (hne : ds ≠ []) (hds : ∀ c ∈ ds, c.isDigit = true) :
    exponent? ('+' :: ds) = some (digitsValue ds) ∧
    exponent? ('-' :: ds) = some (-(digitsValue ds : Int)) := by
  simp [exponent?, hne, List.all_eq_true.2 hds]

end Numerals

end Json

namespace Decimal

structure IsNormal (d : Decimal) : Prop where
  ne_nil : d.digits ≠ []
  digits : ∀ c ∈ d.digits, c.isDigit = true
  head : d.digits.head? ≠ some '0'

/-- The numeral has the value of the decimal, if need be with zeros behind its digits, and is not
written as an integer. -/
structure IsWritten (d : Decimal) (n : Numeral) : Prop where
  positive : n.negative = false
  digits : ∀ c ∈ n.whole ++ n.fraction.getD [], c.isDigit = true
  real : n.isWhole = false
  value : ∃ k : Nat, n.value = digitsValue d.digits * 10 ^ k ∧
    n.lastPower + k = d.exponent + 1 - d.digits.length

variable {d : Decimal}

theorem isDigit_zeros (k : Nat) : ∀ c ∈ List.replicate k '0', c.isDigit = true := by
  intro c hc
  rw [List.eq_of_mem_replicate hc]
  rfl

theorem IsNormal.isWhole_take (h : d.IsNormal) (e k : Nat) :
    Json.IsWhole (d.digits.take (e + 1) ++ List.replicate k '0') where
  ne_nil := by simp [h.ne_nil]
  digits := by
    intro c hc
    rcases List.mem_append.1 hc with hc | hc
    · exact h.digits c (List.mem_of_mem_take hc)
    · exact isDigit_zeros k c hc
  zero := by
    obtain ⟨c, cs, hcs⟩ := List.exists_cons_of_ne_nil h.ne_nil
    have hhead := h.head
    rw [hcs] at hhead ⊢
    intro hzero
    exact absurd hzero hhead

/-- Up to the digit of the ones there may be zeros missing, and behind the point there is one at
least. -/
theorem exists_numeral_positional (h : d.IsNormal) {e : Nat} (he : d.exponent = e) (hle : e ≤ 15) :
    ∃ n, Json.numeral? d.text = some n ∧ d.IsWritten n := by
  have htext : d.text = d.digits.take (e + 1) ++
      List.replicate (e + 1 - (d.digits.take (e + 1)).length) '0' ++
        '.' :: (if d.digits.drop (e + 1) = [] then ['0'] else d.digits.drop (e + 1)) := by
    unfold text
    rw [he]
    simp [hle]
  have hwhole := h.isWhole_take e (e + 1 - (d.digits.take (e + 1)).length)
  have hzero : ∀ c ∈ ['0'], c.isDigit = true := isDigit_zeros 1
  by_cases hrest : d.digits.drop (e + 1) = []
  · have hlength : d.digits.length ≤ e + 1 := List.drop_eq_nil_iff.1 hrest
    rw [htext, if_pos hrest, ← List.append_nil ['0'],
      Json.numeral?_point hwhole (List.cons_ne_nil _ _) hzero .none]
    refine ⟨_, rfl, rfl, ?_, rfl, e + 1 - d.digits.length + 1, ?_, ?_⟩
    · exact List.forall_mem_append.2 ⟨hwhole.digits, hzero⟩
    · rw [Numeral.value, List.take_of_length_le hlength, ← digitsValue_append_zeros,
        List.replicate_succ', List.append_assoc]
      rfl
    · simp only [Numeral.lastPower, Option.getD_none, Option.getD_some, List.length_singleton]
      omega
  · have hlength : e + 1 < d.digits.length := Nat.not_le.1 fun hle =>
      hrest (List.drop_eq_nil_iff.2 hle)
    have hzeros : e + 1 - (d.digits.take (e + 1)).length = 0 := by
      rw [List.length_take]
      omega
    have hdrop : ∀ c ∈ d.digits.drop (e + 1), c.isDigit = true :=
      fun c hc => h.digits c (List.mem_of_mem_drop hc)
    rw [htext, if_neg hrest, ← List.append_nil (d.digits.drop (e + 1)),
      Json.numeral?_point hwhole hrest hdrop .none]
    refine ⟨_, rfl, rfl, ?_, rfl, 0, ?_, ?_⟩
    · exact List.forall_mem_append.2 ⟨hwhole.digits, hdrop⟩
    · rw [Numeral.value, hzeros, List.replicate_zero, List.append_nil, Option.getD_some,
        List.take_append_drop, Nat.pow_zero, Nat.mul_one]
    · simp only [Numeral.lastPower, Option.getD_none, Option.getD_some, List.length_drop]
      omega

theorem exists_numeral_small (h : d.IsNormal) {e : Nat} (he : d.exponent = .negSucc e)
    (hle : e ≤ 4) : ∃ n, Json.numeral? d.text = some n ∧ d.IsWritten n := by
  have htext : d.text = ['0'] ++ '.' :: (List.replicate e '0' ++ d.digits ++ []) := by
    unfold text
    rw [he]
    simp [hle]
  have hwhole : Json.IsWhole ['0'] := ⟨List.cons_ne_nil _ _, isDigit_zeros 1, fun _ => rfl⟩
  have hdigits : ∀ c ∈ List.replicate e '0' ++ d.digits, c.isDigit = true :=
    List.forall_mem_append.2 ⟨isDigit_zeros e, h.digits⟩
  rw [htext, Json.numeral?_point hwhole (by simp [h.ne_nil]) hdigits .none]
  refine ⟨_, rfl, rfl, ?_, rfl, 0, ?_, ?_⟩
  · exact List.forall_mem_append.2 ⟨isDigit_zeros 1, hdigits⟩
  · rw [Nat.pow_zero, Nat.mul_one, ← digitsValue_zeros_append (e + 1), List.replicate_succ,
      List.cons_append]
    rfl
  · simp only [Numeral.lastPower, Option.getD_none, Option.getD_some, List.length_append,
      List.length_replicate]
    omega

theorem exists_numeral_scientific (h : d.IsNormal) {es : List Char}
    (hes : Json.IsPower es (some d.exponent))
    (htext : d.text = d.digits.take 1 ++
      (if d.digits.length ≤ 1 then [] else '.' :: d.digits.drop 1) ++ es) :
    ∃ n, Json.numeral? d.text = some n ∧ d.IsWritten n := by
  have hwhole := h.isWhole_take 0 0
  rw [List.replicate_zero, List.append_nil] at hwhole
  by_cases hlength : d.digits.length ≤ 1
  · have htake : d.digits.take 1 = d.digits := List.take_of_length_le hlength
    have hpos := List.length_pos_iff.2 h.ne_nil
    rw [htext, if_pos hlength, List.append_nil, Json.numeral?_whole hwhole hes]
    refine ⟨_, rfl, rfl, ?_, rfl, 0, ?_, ?_⟩
    · simpa using hwhole.digits
    · simp [Numeral.value, htake]
    · simp only [Numeral.lastPower, Option.getD_none, Option.getD_some, List.length_nil]
      omega
  · have hdrop : ∀ c ∈ d.digits.drop 1, c.isDigit = true :=
      fun c hc => h.digits c (List.mem_of_mem_drop hc)
    have hne : d.digits.drop 1 ≠ [] := fun hnil => hlength (List.drop_eq_nil_iff.1 hnil)
    rw [htext, if_neg hlength, List.append_assoc, List.cons_append,
      Json.numeral?_point hwhole hne hdrop hes]
    refine ⟨_, rfl, rfl, ?_, rfl, 0, ?_, ?_⟩
    · exact List.forall_mem_append.2 ⟨hwhole.digits, hdrop⟩
    · rw [Numeral.value, Option.getD_some, List.take_append_drop, Nat.pow_zero, Nat.mul_one]
    · simp only [Numeral.lastPower, Option.getD_some, List.length_drop]
      omega

theorem isPower_digits (e : Nat) :
    Json.IsPower ('e' :: '+' :: Nat.toDigits 10 e) (some e) ∧
    Json.IsPower ('e' :: '-' :: Nat.toDigits 10 e) (some (-(e : Int))) := by
  obtain ⟨hplus, hminus⟩ := Json.exponent?_digits Nat.toDigits_ne_nil (isDigit_toDigits e)
  rw [digitsValue_toDigits] at hplus hminus
  exact ⟨.power hplus, .power hminus⟩

section Characters

variable {ds : List Char}

theorem isNumberChar_of_isDigit (h : ∀ c ∈ ds, c.isDigit = true) :
    ∀ c ∈ ds, Json.isNumberChar c = true := by
  intro c hc
  simp [Json.isNumberChar, h c hc]

theorem isNumberChar_scientific (h : ∀ c ∈ d.digits, c.isDigit = true) {sign : Char}
    (hsign : Json.isNumberChar sign = true) (e : Nat) :
    ∀ c ∈ text.scientific d sign e, Json.isNumberChar c = true := by
  have hdigits := isNumberChar_of_isDigit h
  have hpower := isNumberChar_of_isDigit (isDigit_toDigits e)
  unfold text.scientific
  split
  · simp only [List.append_nil, List.forall_mem_append, List.forall_mem_cons]
    exact ⟨fun c hc => hdigits c (List.mem_of_mem_take hc), rfl, hsign, hpower⟩
  · simp only [List.forall_mem_append, List.forall_mem_cons]
    exact ⟨⟨fun c hc => hdigits c (List.mem_of_mem_take hc), rfl,
      fun c hc => hdigits c (List.mem_of_mem_drop hc)⟩, rfl, hsign, hpower⟩

theorem isNumberChar_text (h : ∀ c ∈ d.digits, c.isDigit = true) :
    ∀ c ∈ d.text, Json.isNumberChar c = true := by
  have hdigits := isNumberChar_of_isDigit h
  have hzeros : ∀ k, ∀ c ∈ List.replicate k '0', Json.isNumberChar c = true :=
    fun k => isNumberChar_of_isDigit (isDigit_zeros k)
  unfold text
  split
  · split
    · simp only [List.forall_mem_append, List.forall_mem_cons]
      refine ⟨⟨fun c hc => hdigits c (List.mem_of_mem_take hc), hzeros _⟩, rfl, ?_⟩
      split
      · exact hzeros 1
      · exact fun c hc => hdigits c (List.mem_of_mem_drop hc)
    · exact isNumberChar_scientific h rfl _
  · split
    · simp only [List.cons_append, List.forall_mem_append, List.forall_mem_cons]
      exact ⟨rfl, rfl, hzeros _, hdigits⟩
    · exact isNumberChar_scientific h rfl _

end Characters

theorem exists_numeral_text (h : d.IsNormal) :
    ∃ n, Json.numeral? d.text = some n ∧ d.IsWritten n := by
  cases he : d.exponent with
  | ofNat e =>
    by_cases hle : e ≤ 15
    · exact exists_numeral_positional h he hle
    · have hpower : Json.IsPower ('e' :: '+' :: Nat.toDigits 10 e) (some d.exponent) := by
        rw [he]
        exact (isPower_digits e).1
      refine exists_numeral_scientific h hpower ?_
      simp [text, he, hle, text.scientific]
  | negSucc e =>
    by_cases hle : e ≤ 4
    · exact exists_numeral_small h he hle
    · have hpower : Json.IsPower ('e' :: '-' :: Nat.toDigits 10 (e + 1)) (some d.exponent) := by
        rw [he]
        exact (isPower_digits (e + 1)).2
      refine exists_numeral_scientific h hpower ?_
      simp [text, he, hle, text.scientific]

end Decimal

namespace Binary64

theorem head?_toDigits_ne {n : Nat} (h : 0 < n) : (Nat.toDigits 10 n).head? ≠ some '0' := by
  intro hzero
  obtain ⟨cs, hcs⟩ := List.head?_eq_some_iff.1 hzero
  have hvalue := digitsValue_toDigits n
  have hdigits := isDigit_toDigits n
  have hle := pow_length_toDigits_le h
  rw [hcs] at hvalue hdigits hle
  have hlt := digitsValue_lt_pow fun c hc => hdigits c (List.mem_cons_of_mem _ hc)
  rw [digitsValue_cons] at hvalue
  simp at hvalue hle
  omega

theorem exists_zeros (ds : List Char) :
    ∃ k, (ds.reverse.dropWhile (· == '0')).reverse ++ List.replicate k '0' = ds := by
  refine ⟨(ds.reverse.takeWhile (· == '0')).length, ?_⟩
  have hzeros : ds.reverse.takeWhile (· == '0') =
      List.replicate (ds.reverse.takeWhile (· == '0')).length '0' :=
    List.eq_replicate_of_mem fun c hc => by simpa using List.mem_takeWhile_imp hc
  rw [← List.reverse_replicate, ← hzeros, ← List.reverse_append, List.takeWhile_append_dropWhile,
    List.reverse_reverse]

theorem decimalOf_spec {n : Nat} (p : Int) (hn : 0 < n) :
    (decimalOf n p).IsNormal ∧ ∃ k : Nat,
      n = digitsValue (decimalOf n p).digits * 10 ^ k ∧
      p + k = (decimalOf n p).exponent + 1 - (decimalOf n p).digits.length := by
  obtain ⟨k, hk⟩ := exists_zeros (Nat.toDigits 10 n)
  have hvalue := digitsValue_toDigits n
  have hhead := head?_toDigits_ne hn
  have hdigits := isDigit_toDigits n
  have hexponent : (decimalOf n p).exponent = p + (Nat.toDigits 10 n).length - 1 := rfl
  have hsome : (decimalOf n p).digits ++ List.replicate k '0' = Nat.toDigits 10 n := hk
  generalize decimalOf n p = d at hexponent hsome ⊢
  rw [← hsome] at hvalue hhead hdigits hexponent
  have hne : d.digits ≠ [] := by
    intro hnil
    rw [hnil, List.nil_append, digitsValue_zeros] at hvalue
    omega
  refine ⟨⟨hne, fun c hc => hdigits c (List.mem_append_left _ hc), ?_⟩, k, ?_, ?_⟩
  · obtain ⟨c, cs, hcs⟩ := List.exists_cons_of_ne_nil hne
    rw [hcs] at hhead ⊢
    exact hhead
  · rw [← digitsValue_append_zeros, hvalue]
  · rw [hexponent, List.length_append, List.length_replicate]
    omega

theorem exists_numeral_shortest (x : Binary64) (hx : x.significand ≠ 0) :
    ∃ n : Numeral, Json.numeral? x.shortest.text = some n ∧ n.negative = false ∧
      n.isWhole = false ∧ (∀ c ∈ n.whole ++ n.fraction.getD [], c.isDigit = true) ∧
      x.Covers n.value n.lastPower := by
  obtain ⟨m, p, hshortest, hcovers⟩ := exists_shortest hx
  obtain ⟨hnormal, k, hm, hp⟩ := decimalOf_spec p (hcovers.pos hx)
  obtain ⟨n, hn, hwritten⟩ := Decimal.exists_numeral_text hnormal
  obtain ⟨j, hvalue, hpower⟩ := hwritten.value
  rw [hm, covers_mul_pow_iff hp] at hcovers
  rw [hshortest]
  refine ⟨n, hn, hwritten.positive, hwritten.real, hwritten.digits, ?_⟩
  rwa [hvalue, covers_mul_pow_iff hpower]

end Binary64

namespace Number

theorem isWhole_toDigits (n : Nat) : Json.IsWhole (Nat.toDigits 10 n) where
  ne_nil := Nat.toDigits_ne_nil
  digits := isDigit_toDigits n
  zero := by
    intro hzero
    obtain rfl | hn := Nat.eq_zero_or_pos n
    · rfl
    · exact absurd hzero (Binary64.head?_toDigits_ne hn)

theorem numeral?_toDigits (n : Nat) :
    Json.numeral? (Nat.toDigits 10 n) = some ⟨false, Nat.toDigits 10 n, none, none⟩ := by
  have h := Json.numeral?_whole (isWhole_toDigits n) .none
  rwa [List.append_nil] at h

theorem ofNumeralBy?_toDigits (real? : Numeral → Option Binary64) {i : Int}
    (hi : -0x8000000000000000 ≤ i ∧ i < 0x10000000000000000) :
    ofNumeralBy? real? ⟨decide (i < 0), Nat.toDigits 10 i.natAbs, none, none⟩ =
      some (.integer i hi) := by
  have hvalue := digitsValue_toDigits i.natAbs
  have hint : ofInt? i = some (.integer i hi) := dif_pos hi
  unfold ofNumeralBy?
  simp only [hvalue]
  by_cases hneg : i < 0
  · have hle : 0 < i.natAbs ∧ i.natAbs ≤ 0x8000000000000000 := by omega
    have habs : -(i.natAbs : Int) = i := by omega
    rw [if_neg fun h => h.2.1 (decide_eq_true hneg), if_pos ⟨rfl, decide_eq_true hneg, hle⟩, habs,
      hint]
  · have hlt : i.natAbs < 0x10000000000000000 := by omega
    have habs : (i.natAbs : Int) = i := by omega
    rw [if_pos ⟨rfl, fun h => hneg (of_decide_eq_true h), hlt⟩, habs, hint]

theorem numeral?_signed {text : List Char} {n : Numeral} (negative : Bool)
    (h : Json.numeral? text = some n) (hn : n.negative = false) :
    Json.numeral? ((if negative then ['-'] else []) ++ text) =
      some { n with negative := negative } := by
  cases negative with
  | false =>
    obtain ⟨negative, whole, fraction, exponent⟩ := n
    rw [if_neg Bool.false_ne_true, List.nil_append, h]
    exact congrArg (fun b => some (Numeral.mk b whole fraction exponent)) hn
  | true =>
    have hhead : text.head? ≠ some '-' :=
      beq_eq_false_iff_ne.1 ((Json.negative_of_numeral? h).symm.trans hn)
    have hminus := Json.numeral?_minus hhead
    rwa [h] at hminus

theorem text_integer {i : Int} (hi : -0x8000000000000000 ≤ i ∧ i < 0x10000000000000000) :
    (integer i hi).text = (if decide (i < 0) then ['-'] else []) ++ Nat.toDigits 10 i.natAbs := by
  unfold text
  by_cases h : i < 0
  · simp [h]
  · simp [h]

theorem exists_numeral_integer (real? : Numeral → Option Binary64) {i : Int}
    (hi : -0x8000000000000000 ≤ i ∧ i < 0x10000000000000000) :
    ∃ numeral, Json.numeral? (integer i hi).text = some numeral ∧
      ofNumeralBy? real? numeral = some (.integer i hi) := by
  refine ⟨_, ?_, ofNumeralBy?_toDigits real? hi⟩
  rw [text_integer hi]
  exact numeral?_signed _ (numeral?_toDigits i.natAbs) rfl

theorem ofNumeral?_of_not_isWhole (n : Numeral) (h : n.isWhole = false) :
    ofNumeral? n = n.toBinary64?.map .real := by
  simp [ofNumeral?, ofNumeralBy?, h]

theorem isNumberChar_text (n : Number) : ∀ c ∈ n.text, Json.isNumberChar c = true := by
  have hsign : ∀ negative : Bool, ∀ c ∈ if negative then ['-'] else [],
      Json.isNumberChar c = true := by
    intro negative
    cases negative with
    | false => exact List.forall_mem_nil _
    | true => exact List.forall_mem_singleton.2 rfl
  cases n with
  | integer i hi =>
    rw [text_integer hi]
    exact List.forall_mem_append.2
      ⟨hsign _, Decimal.isNumberChar_of_isDigit (isDigit_toDigits i.natAbs)⟩
  | real x =>
    refine List.forall_mem_append.2 ⟨hsign x.negative, ?_⟩
    split
    · exact List.all_eq_true.1 rfl
    · rename_i hx
      obtain ⟨m, p, hshortest, hcovers⟩ := x.exists_shortest hx
      rw [hshortest]
      exact Decimal.isNumberChar_text (Binary64.decimalOf_spec p (hcovers.pos hx)).1.digits

/-- The text of a number is a numeral that stands for it. -/
theorem exists_numeral_text (n : Number) :
    ∃ numeral, Json.numeral? n.text = some numeral ∧ ofNumeral? numeral = some n := by
  cases n with
  | integer i hi => exact exists_numeral_integer Numeral.toBinary64? hi
  | real x =>
    rw [text]
    by_cases hx : x.significand = 0
    · have hzero : Json.numeral? ['0', '.', '0'] = some ⟨false, ['0'], some ['0'], none⟩ := by
        decide +kernel
      rw [if_pos hx]
      refine ⟨_, numeral?_signed x.negative hzero rfl, ?_⟩
      have hx0 : Binary64.zero x.negative = x := by
        refine Binary64.eq_of_magnitude_eq rfl ?_
        rw [Binary64.magnitude, Binary64.magnitude, hx, Nat.zero_mul]
        exact Nat.zero_mul _
      rw [ofNumeral?_of_not_isWhole _ rfl]
      exact congrArg (fun y => some (real y)) hx0
    · obtain ⟨n, hn, hpositive, hreal, hdigits, hcovers⟩ := x.exists_numeral_shortest hx
      have hvalue : ({ n with negative := x.negative } : Numeral).toBinary64? = some x :=
        Numeral.toBinary64?_of_covers hdigits rfl hx hcovers
      rw [if_neg hx]
      refine ⟨_, numeral?_signed x.negative hn hpositive, ?_⟩
      rw [ofNumeral?_of_not_isWhole { n with negative := x.negative } hreal, hvalue]
      rfl

end Number

end RowSelect
