import RowSelect.Proofs.Lexing

/-!
Case folding character by character. A text without capital sigmas has no context to lower-case in,
and a quoted literal is passed over as a whole, so the folded text is that of the pieces.
-/

set_option autoImplicit false

namespace RowSelect.Text

theorem lowerChar_head? (c : Char) :
    (c = '\u0130' ∧ lowerChar c = ['i', '\u0307']) ∨ ∃ d, lowerChar c = [d] := by
  unfold lowerChar
  by_cases hdot : c = '\u0130'
  · left
    exact ⟨hdot, if_pos hdot⟩
  · right
    rw [if_neg hdot]
    cases caseShift? caseRuns c.toNat with
    | none => exact ⟨c, rfl⟩
    | some shift => exact ⟨_, rfl⟩

theorem lowerFrom_eq_flatMap {before cs : List Char} (h : ∀ c ∈ cs, c ≠ 'Σ') :
    lowerFrom before cs = cs.flatMap lowerChar := by
  induction cs generalizing before with
  | nil => rfl
  | cons c cs ih =>
    rw [lowerFrom, if_neg (h c (List.mem_cons_self ..)), List.flatMap_cons,
      ih fun d hd => h d (List.mem_cons_of_mem _ hd)]

theorem lowerChar_of_lowerFrom_eq {before cs : List Char} (h : lowerFrom before cs = cs) :
    ∀ c ∈ cs, c ≠ 'Σ' ∧ lowerChar c = [c] := by
  induction cs generalizing before with
  | nil => simp
  | cons c cs ih =>
    rw [lowerFrom] at h
    by_cases hsigma : c = 'Σ'
    · rw [if_pos hsigma] at h
      have hhead := (List.cons.inj h).1
      rw [hsigma] at hhead
      split at hhead <;> exact absurd hhead (by decide)
    · rw [if_neg hsigma] at h
      rcases lowerChar_head? c with ⟨rfl, htwo⟩ | ⟨d, hone⟩
      · rw [htwo] at h
        exact absurd (List.cons.inj h).1 (by decide)
      · rw [hone] at h
        obtain ⟨rfl, hrest⟩ := List.cons.inj h
        intro e he
        rcases List.mem_cons.1 he with rfl | he
        · exact ⟨hsigma, hone⟩
        · exact ih hrest e he

theorem mem_of_mem_lowerFrom {before cs : List Char} {d : Char} (hd : d ∈ lowerFrom before cs)
    (hsign : isSign d = true) : d ∈ cs := by
  induction cs generalizing before with
  | nil => cases hd
  | cons c cs ih =>
    rw [lowerFrom] at hd
    by_cases hsigma : c = 'Σ'
    · rw [if_pos hsigma, List.mem_cons] at hd
      rcases hd with hhead | hd
      · rw [hhead] at hsign
        split at hsign <;> exact absurd hsign (by decide)
      · exact List.mem_cons_of_mem _ (ih hd)
    · rw [if_neg hsigma, List.mem_append] at hd
      rcases hd with hhead | hd
      · rcases lowerChar_sign c with hself | ⟨-, hnone⟩
        · rw [hself] at hhead
          rw [List.mem_singleton.1 hhead]
          exact List.mem_cons_self ..
        · rw [hnone d hhead] at hsign
          cases hsign
      · exact List.mem_cons_of_mem _ (ih hd)

theorem lowerFrom_of_signs {before cs : List Char}
    (h : ∀ d ∈ lowerFrom before cs, isSign d = true) : lowerFrom before cs = cs := by
  induction cs generalizing before with
  | nil => rfl
  | cons c cs ih =>
    rw [lowerFrom] at h ⊢
    by_cases hsigma : c = 'Σ'
    · rw [if_pos hsigma] at h
      have hhead := h _ (List.mem_cons_self ..)
      split at hhead <;> exact absurd hhead (by decide)
    · rw [if_neg hsigma] at h ⊢
      have hrest := ih fun d hd => h d (List.mem_append_right _ hd)
      rcases lowerChar_sign c with hself | ⟨hne, hnone⟩
      · rw [hself, hrest, List.singleton_append]
      · obtain ⟨d, hd⟩ := List.exists_mem_of_ne_nil _ hne
        have hsign := h d (List.mem_append_left _ hd)
        rw [hnone d hd] at hsign
        cases hsign

end RowSelect.Text

namespace RowSelect.Query

open RowSelect.Text

def Plain (cs : List Char) : Prop := ∀ c ∈ cs, isQuote c = false ∧ c ≠ 'Σ'

theorem Plain.append {xs ys : List Char} (hx : Plain xs) (hy : Plain ys) : Plain (xs ++ ys) := by
  intro c hc
  rcases List.mem_append.1 hc with hc | hc
  · exact hx c hc
  · exact hy c hc

/-- The second text is the first one folded: characters one by one, but at most one quoted literal as
it stands. -/
inductive Folds : List Char → List Char → Prop where
  | plain {cs : List Char} (h : Plain cs) : Folds cs (cs.flatMap lowerChar)
  | literal {before body after : List Char} {quote : Char} (hbefore : Plain before)
      (hquote : isQuote quote = true) (hbody : quote ∉ body) (hafter : Plain after) :
      Folds (before ++ quote :: (body ++ quote :: after))
        (before.flatMap lowerChar ++ quote :: (body ++ quote :: after.flatMap lowerChar))

namespace Folds

variable {cs ds xs : List Char}

theorem prepend (h : Folds cs ds) (hx : Plain xs) :
    Folds (xs ++ cs) (xs.flatMap lowerChar ++ ds) := by
  cases h with
  | plain hcs =>
    rw [← List.flatMap_append]
    exact .plain (hx.append hcs)
  | literal hbefore hquote hbody hafter =>
    rw [← List.append_assoc, ← List.append_assoc, ← List.flatMap_append]
    exact .literal (hx.append hbefore) hquote hbody hafter

theorem head?_eq (h : Folds cs ds) {c : Char} (hc : cs.head? = some c)
    (hletter : isAlphabetic c = false) : ds.head? = some c := by
  cases h with
  | plain =>
    obtain ⟨rest, rfl⟩ := List.head?_eq_some_iff.1 hc
    rw [List.flatMap_cons, lowerChar_of_not_alphabetic hletter]
    rfl
  | @literal before =>
    cases before with
    | nil => exact hc
    | cons b before =>
      obtain rfl : b = c := by simpa using hc
      rw [List.flatMap_cons, lowerChar_of_not_alphabetic hletter]
      rfl

theorem eq_nil (h : Folds [] ds) : ds = [] := by
  generalize hcs : [] = cs at h
  cases h with
  | plain => rw [← hcs, List.flatMap_nil]
  | @literal before => simp at hcs

end Folds

theorem not_isQuote_of_lower {cs : List Char} (h : ∀ c ∈ cs, isQuote c = false) :
    ∀ c ∈ lower cs, isQuote c = false := by
  intro c hc
  cases hquote : isQuote c with
  | false => rfl
  | true => rw [← hquote, h c (mem_of_mem_lowerFrom hc (isSign_of_isQuote hquote))]

/-- A folded text has no quotes, or it has its first quoted piece where the text has it. -/
theorem foldCase_eq_ok_iff {cs ds : List Char} :
    foldCase cs = .ok ds ↔
      ((∀ c ∈ cs, isQuote c = false) ∧ ds = lower cs) ∨
      ∃ before quote body rest, cs = before ++ quote :: (body ++ quote :: rest) ∧
        (∀ c ∈ before, isQuote c = false) ∧ isQuote quote = true ∧ quote ∉ body ∧
        ds = lower before ++ quote :: (body ++ quote :: lower rest) := by
  constructor
  · intro h
    unfold foldCase at h
    dsimp only at h
    cases hdrop : cs.dropWhile (!isQuote ·) with
    | nil =>
      rw [hdrop] at h
      cases h
      exact .inl ⟨fun c hc => by simpa using List.dropWhile_eq_nil_iff.1 hdrop c hc, rfl⟩
    | cons quote after =>
      obtain ⟨hcut, hbefore, hquote⟩ := cut_of_dropWhile hdrop
      rw [hdrop] at h
      dsimp only at h
      split at h
      · cases h
      · next x hx =>
        obtain ⟨body, rest, rfl, hbody, rfl⟩ := lexLiteral?_eq_some_iff.1 hx
        cases h
        refine .inr ⟨_, quote, body, rest, hcut, ?_, by simpa using hquote, hbody, by simp⟩
        exact fun c hc => by simpa using hbefore c hc
  · intro h
    rcases h with ⟨hnone, rfl⟩ | ⟨before, quote, body, rest, rfl, hbefore, hquote, hbody, rfl⟩
    · have hdrop : cs.dropWhile (!isQuote ·) = [] :=
        List.dropWhile_eq_nil_iff.2 fun c hc => by simp [hnone c hc]
      rw [foldCase, hdrop]
    · have hrun : ∀ c ∈ before, (!isQuote c) = true := fun c hc => by simp [hbefore c hc]
      have hstop : (!isQuote quote) = false := by simp [hquote]
      simp only [foldCase, takeWhile_append_stop hrun hstop, dropWhile_append_stop hrun hstop,
        lexLiteral?_eq_some hbody]
      simp

theorem lower_of_plain {cs : List Char} (h : Plain cs) : lower cs = cs.flatMap lowerChar :=
  lowerFrom_eq_flatMap fun c hc => (h c hc).2

theorem foldCase_of_folds {cs ds : List Char} (h : Folds cs ds) : foldCase cs = .ok ds := by
  rw [foldCase_eq_ok_iff]
  cases h with
  | plain hcs => exact .inl ⟨fun c hc => (hcs c hc).1, (lower_of_plain hcs).symm⟩
  | literal hbefore hquote hbody hafter =>
    rw [← lower_of_plain hbefore, ← lower_of_plain hafter]
    exact .inr ⟨_, _, _, _, rfl, fun c hc => (hbefore c hc).1, hquote, hbody, rfl⟩

theorem Folds.unique {cs ds es : List Char} (h : Folds cs ds) (h' : Folds cs es) : ds = es := by
  have hds := foldCase_of_folds h
  rw [foldCase_of_folds h'] at hds
  exact (Except.ok.inj hds).symm

def Inert (cs : List Char) : Prop := ∀ c ∈ cs, isQuote c = false ∧ isAlphabetic c = false

namespace Inert

variable {cs ds : List Char}

theorem of_all (h : (cs.all fun c => !isQuote c && !isAlphabetic c) = true) : Inert cs := by
  intro c hc
  have hboth := List.all_eq_true.1 h c hc
  simpa using hboth

theorem plain (h : Inert cs) : Plain cs := by
  intro c hc
  obtain ⟨hquote, hletter⟩ := h c hc
  refine ⟨hquote, ?_⟩
  intro he
  rw [he] at hletter
  exact absurd hletter (by decide +kernel)

theorem flatMap_lowerChar (h : Inert cs) : cs.flatMap lowerChar = cs := by
  induction cs with
  | nil => rfl
  | cons c cs ih =>
    rw [List.flatMap_cons, lowerChar_of_not_alphabetic (h c (List.mem_cons_self ..)).2,
      ih fun d hd => h d (List.mem_cons_of_mem _ hd)]
    rfl

theorem blanks (h : ∀ c ∈ cs, isBlank c = true) : Inert cs := by
  intro c hc
  have hblank := h c hc
  refine ⟨?_, not_isAlphabetic_of_isBlank hblank⟩
  cases hquote : isQuote c with
  | false => rfl
  | true =>
    rw [not_isBlank_of_isQuote hquote] at hblank
    cases hblank

theorem digits (h : ∀ c ∈ cs, c.isDigit = true) : Inert cs := by
  intro c hc
  obtain ⟨hlo, hhi⟩ := toNat_of_isDigit (h c hc)
  constructor
  · cases hquote : isQuote c with
    | false => rfl
    | true =>
      simp only [isQuote, Bool.or_eq_true, beq_iff_eq] at hquote
      rcases hquote with rfl | rfl <;> exact absurd hlo (by decide)
  · cases hletter : isAlphabetic c with
    | false => rfl
    | true =>
      have hhigh := lt_toNat_of_isAlphabetic hletter
      omega

end Inert

end RowSelect.Query
