import RowSelect.Proofs.CaseFolding

/-!
Lower-casing a text part by part. What a part becomes depends on its neighbours only in the form of
a sigma, which is two bytes long in either form. But for one character, which becomes two, letters
become letters and everything else stays, so words and numbers are cut where they were.
-/

set_option autoImplicit false

namespace RowSelect.Text

def dottedI : Char := '\u0130'

def Alike (c d : Char) : Prop := c = d ∨ isAlphabetic c = true ∧ isAlphabetic d = true

theorem alike_of_lowerChar {c : Char} (hc : c ≠ dottedI) : ∃ d, lowerChar c = [d] ∧ Alike c d := by
  rcases lowerChar_cases hc with hsame | ⟨hletter, d, hd, hletter', -⟩
  · exact ⟨c, hsame, .inl rfl⟩
  · exact ⟨d, hd, .inr ⟨hletter, hletter'⟩⟩

namespace Alike

open RowSelect.Query

variable {c d : Char}

theorem apply_eq {α : Type} {f : Char → α} {a : α} (h : Alike c d)
    (hf : ∀ e, isAlphabetic e = true → f e = a) : f d = f c := by
  rcases h with rfl | ⟨hc, hd⟩
  · rfl
  · rw [hf c hc, hf d hd]

theorem beq_eq (h : Alike c d) {s : Char} (hs : s.toNat ≤ 0x40) : (d == s) = (c == s) := by
  refine h.apply_eq (f := (· == s)) (a := false) fun e he => ?_
  have hhigh := lt_toNat_of_isAlphabetic he
  refine beq_eq_false_iff_ne.2 ?_
  rintro rfl
  omega

theorem isDigit_eq (h : Alike c d) : d.isDigit = c.isDigit := by
  refine h.apply_eq (a := false) fun e he => ?_
  cases hdigit : e.isDigit with
  | false => rfl
  | true =>
    have hhigh := lt_toNat_of_isAlphabetic he
    have hbounds := toNat_of_isDigit hdigit
    omega

theorem isSeparator_eq (h : Alike c d) : isSeparator d = isSeparator c := by
  rw [isSeparator, isSeparator, h.beq_eq (by decide), h.beq_eq (by decide)]

theorem isBlank_eq (h : Alike c d) : isBlank d = isBlank c :=
  h.apply_eq fun _ => not_isBlank_of_isAlphabetic

theorem isWordStart_eq (h : Alike c d) : isWordStart d = isWordStart c :=
  h.apply_eq (a := true) fun e he => by simp [isWordStart, he]

theorem isWordChar_eq (h : Alike c d) : isWordChar d = isWordChar c :=
  h.apply_eq (a := true) fun e he => by simp [isWordChar, he]

end Alike

/-- The lower case of a part of a text. What stands before it is given nearest first. -/
def lowerBetween (before after : List Char) : List Char → List Char
  | [] => []
  | c :: cs =>
    (if c = 'Σ' then [if casedNext before && !casedNext (cs ++ after) then 'ς' else 'σ']
    else lowerChar c) ++ lowerBetween (c :: before) after cs

theorem lowerFrom_append (before xs ys : List Char) :
    lowerFrom before (xs ++ ys) =
      lowerBetween before ys xs ++ lowerFrom (xs.reverse ++ before) ys := by
  induction xs generalizing before with
  | nil => rfl
  | cons c xs ih =>
    rw [List.cons_append, lowerFrom, ih, lowerBetween]
    by_cases hsigma : c = 'Σ' <;> simp [hsigma]

theorem lowerFrom_cons (before : List Char) (c : Char) (cs : List Char) :
    lowerFrom before (c :: cs) = lowerBetween before cs [c] ++ lowerFrom (c :: before) cs :=
  lowerFrom_append before [c] cs

theorem lowerBetween_nil (before cs : List Char) :
    lowerBetween before [] cs = lowerFrom before cs := by
  have happend := lowerFrom_append before cs []
  simpa [lowerFrom] using happend.symm

theorem lowerBetween_append (before after xs ys : List Char) :
    lowerBetween before after (xs ++ ys) =
      lowerBetween before (ys ++ after) xs ++ lowerBetween (xs.reverse ++ before) after ys := by
  induction xs generalizing before with
  | nil => rfl
  | cons c xs ih => simp [lowerBetween, ih]

theorem lowerBetween_cons (before after : List Char) (c : Char) (cs : List Char) :
    lowerBetween before after (c :: cs) =
      lowerBetween before (cs ++ after) [c] ++ lowerBetween (c :: before) after cs :=
  lowerBetween_append before after [c] cs

theorem lowerBetween_eq_lower {before after cs : List Char} (h : ∀ c ∈ cs, c ≠ 'Σ') :
    lowerBetween before after cs = lower cs := by
  have hflat : ∀ before, lowerBetween before after cs = cs.flatMap lowerChar := by
    induction cs with
    | nil => exact fun _ => rfl
    | cons c cs ih =>
      intro before
      rw [lowerBetween, if_neg (h c (List.mem_cons_self ..)), List.flatMap_cons,
        ih fun d hd => h d (List.mem_cons_of_mem _ hd)]
  rw [hflat, lower, lowerFrom_eq_flatMap h]

def EndsCase (cs : List Char) : Prop :=
  ∀ c ∈ cs.head?, isCaseIgnorable c = false ∧ isCased c = false

theorem EndsCase.of_append {xs ys : List Char} (h : EndsCase (xs ++ ys)) : EndsCase xs := by
  intro c hc
  cases xs with
  | nil => cases hc
  | cons => exact h c hc

theorem casedNext_append (xs : List Char) {cs : List Char} (h : EndsCase cs) :
    casedNext (xs ++ cs) = casedNext xs := by
  obtain ⟨-, hdrop⟩ := cut_append xs fun c hc => (h c hc).1
  rw [casedNext, casedNext, hdrop]
  cases xs.dropWhile isCaseIgnorable with
  | nil =>
    cases cs with
    | nil => rfl
    | cons c cs => simpa using (h c rfl).2
  | cons => rfl

theorem lowerBetween_eq_lower_of_endsCase {before after : List Char} (cs : List Char)
    (hbefore : EndsCase before) (hafter : EndsCase after) :
    lowerBetween before after cs = lower cs := by
  have hall : ∀ seen, lowerBetween (seen ++ before) after cs = lowerFrom seen cs := by
    induction cs with
    | nil => exact fun _ => rfl
    | cons c cs ih =>
      intro seen
      have hrest := ih (c :: seen)
      rw [List.cons_append] at hrest
      rw [lowerBetween, lowerFrom, hrest, casedNext_append seen hbefore, casedNext_append cs hafter]
      by_cases hsigma : c = 'Σ' <;> simp [hsigma]
  exact hall []

theorem lowerBetween_dottedI (before after : List Char) :
    lowerBetween before after [dottedI] = ['i', '\u0307'] := by
  have hsigma : dottedI ≠ 'Σ' := by decide
  rw [lowerBetween, if_neg hsigma]
  rfl

theorem alike_sigma : Alike 'Σ' 'σ' ∧ Alike 'Σ' 'ς' :=
  ⟨.inr (by decide), .inr (by decide)⟩

/-- But for the dotted I, a character becomes one of its own kind. -/
theorem exists_lowerBetween_singleton (before after : List Char) {c : Char} (hc : c ≠ dottedI) :
    ∃ d, lowerBetween before after [c] = [d] ∧ Alike c d := by
  rw [lowerBetween, lowerBetween, List.append_nil]
  by_cases hsigma : c = 'Σ'
  · rw [if_pos hsigma, hsigma]
    refine ⟨_, rfl, ?_⟩
    split
    · exact alike_sigma.2
    · exact alike_sigma.1
  · rw [if_neg hsigma]
    exact alike_of_lowerChar hc

theorem lowerBetween_of_not_alphabetic (before after : List Char) {c : Char}
    (hc : isAlphabetic c = false) : lowerBetween before after [c] = [c] := by
  have hsigma : c ≠ 'Σ' := by
    rintro rfl
    exact absurd hc (by decide)
  rw [lowerBetween, if_neg hsigma, lowerChar_of_not_alphabetic hc]
  rfl

theorem lowerFrom_cons_of_not_alphabetic (before : List Char) {c : Char} (cs : List Char)
    (hc : isAlphabetic c = false) :
    lowerFrom before (c :: cs) = c :: lowerFrom (c :: before) cs := by
  rw [lowerFrom_cons, lowerBetween_of_not_alphabetic _ _ hc, List.singleton_append]

theorem lowerBetween_eq_self (before after : List Char) {cs : List Char}
    (h : ∀ c ∈ cs, isAlphabetic c = false) : lowerBetween before after cs = cs := by
  induction cs generalizing before with
  | nil => rfl
  | cons c cs ih =>
    rw [lowerBetween_cons, lowerBetween_of_not_alphabetic _ _ (h c (List.mem_cons_self ..)),
      ih _ fun d hd => h d (List.mem_cons_of_mem _ hd)]
    rfl

theorem mem_of_mem_lowerBetween {before after cs : List Char} {d : Char}
    (hd : d ∈ lowerBetween before after cs) (hletter : isAlphabetic d = false)
    (hdot : d ≠ '\u0307') : d ∈ cs := by
  induction cs generalizing before with
  | nil => cases hd
  | cons c cs ih =>
    rw [lowerBetween_cons, List.mem_append] at hd
    rcases hd with hd | hd
    · by_cases hc : c = dottedI
      · rw [hc, lowerBetween_dottedI] at hd
        have hi : d ≠ 'i' := by
          rintro rfl
          exact absurd hletter (by decide)
        simp [hi, hdot] at hd
      · obtain ⟨e, he, halike⟩ := exists_lowerBetween_singleton before (cs ++ after) hc
        rw [he, List.mem_singleton] at hd
        rcases halike with rfl | ⟨-, hletter'⟩
        · exact hd ▸ List.mem_cons_self ..
        · rw [hd, hletter'] at hletter
          cases hletter
    · exact List.mem_cons_of_mem _ (ih hd)

theorem mem_lowerBetween_of_dottedI {before after cs : List Char} (h : dottedI ∈ cs) :
    '\u0307' ∈ lowerBetween before after cs := by
  obtain ⟨xs, ys, rfl⟩ := List.append_of_mem h
  rw [lowerBetween_append, lowerBetween_cons, lowerBetween_dottedI]
  simp

theorem exists_of_lowerFrom_eq {before cs ds more : List Char} {d : Char}
    (h : lowerFrom before cs = ds ++ d :: more) :
    ∃ start c rest head tail, cs = start ++ c :: rest ∧
      lowerBetween (start.reverse ++ before) rest [c] = head ++ d :: tail ∧
      ds = lowerBetween before (c :: rest) start ++ head ∧
      more = tail ++ lowerFrom (c :: (start.reverse ++ before)) rest := by
  induction cs generalizing before ds with
  | nil => simp [lowerFrom] at h
  | cons c cs ih =>
    rw [lowerFrom_cons] at h
    have hlater : ∀ ds', lowerFrom (c :: before) cs = ds' ++ d :: more →
        ds = lowerBetween before cs [c] ++ ds' →
        ∃ start e rest head tail, c :: cs = start ++ e :: rest ∧
          lowerBetween (start.reverse ++ before) rest [e] = head ++ d :: tail ∧
          ds = lowerBetween before (e :: rest) start ++ head ∧
          more = tail ++ lowerFrom (e :: (start.reverse ++ before)) rest := by
      intro ds' hrest hds
      obtain ⟨start, e, rest, head, tail, rfl, hchar, rfl, rfl⟩ := ih hrest
      refine ⟨c :: start, e, rest, head, tail, rfl, by simpa using hchar, ?_, by simp⟩
      rw [hds, lowerBetween_cons before (e :: rest) c start, List.append_assoc]
    -- Either `d` comes from behind the first character, or it is in what that one becomes.
    rcases List.append_eq_append_iff.1 h with ⟨ds', hds, hrest⟩ | ⟨tail, hchar, hrest⟩
    · exact hlater ds' hrest hds
    · cases tail with
      | nil => exact hlater [] hrest.symm (by simpa using hchar.symm)
      | cons e tail =>
        obtain ⟨rfl, rfl⟩ := List.cons.inj hrest
        exact ⟨[], c, cs, ds, tail, rfl, hchar, rfl, rfl⟩

theorem utf8Length_lowerBetween (before after cs : List Char) :
    utf8Length (lowerBetween before after cs) = utf8Length (cs.flatMap lowerChar) := by
  induction cs generalizing before with
  | nil => rfl
  | cons c cs ih =>
    rw [lowerBetween, utf8Length_append, ih, List.flatMap_cons, utf8Length_append]
    by_cases hsigma : c = 'Σ'
    · have hlower : utf8Length (lowerChar 'Σ') = 2 := by decide
      rw [if_pos hsigma, hsigma, hlower]
      split <;> rfl
    · rw [if_neg hsigma]

theorem utf8Length_lower (cs : List Char) :
    utf8Length (lower cs) = utf8Length (cs.flatMap lowerChar) := by
  rw [lower, ← lowerBetween_nil, utf8Length_lowerBetween]

theorem utf8Length_flatMap_lowerChar {cs : List Char}
    (h : ∀ c ∈ cs, utf8Length (lowerChar c) = c.utf8Size) :
    utf8Length (cs.flatMap lowerChar) = utf8Length cs := by
  induction cs with
  | nil => rfl
  | cons c cs ih =>
    rw [List.flatMap_cons, utf8Length_append, h c (List.mem_cons_self ..),
      ih fun d hd => h d (List.mem_cons_of_mem _ hd), utf8Length]

end RowSelect.Text
