import RowSelect.Proofs.CaseFolding
import RowSelect.Proofs.SelectedRows
import RowSelect.Proofs.TokenSpans

/-!
Folding a folded text, and folding texts that differ in the case of their letters. That a lower case
has no other lower case is a fact of the tables; that the pieces around a literal stay where they
are follows because no letter is a quote or white space in the other case.
-/

set_option autoImplicit false

namespace RowSelect.Text

theorem lowerChar_of_mem_lowerChar {c d : Char} (hd : d ∈ lowerChar c) : lowerChar d = [d] := by
  by_cases hdot : c = '\u0130'
  · have hsign : lowerChar '\u0307' = ['\u0307'] := lowerChar_of_not_alphabetic (by decide)
    rw [hdot, lowerChar, if_pos rfl] at hd
    rcases List.mem_cons.1 hd with rfl | hd
    · rfl
    · rwa [List.mem_singleton.1 hd]
  · rcases lowerChar_cases hdot with hsame | ⟨-, e, he, -, hstays⟩
    · rw [hsame, List.mem_singleton] at hd
      rwa [hd]
    · rw [he, List.mem_singleton] at hd
      rwa [hd]

theorem lowerChar_of_mem_lowerFrom {before cs : List Char} {d : Char}
    (hd : d ∈ lowerFrom before cs) : lowerChar d = [d] := by
  have hsigma : lowerChar 'ς' = ['ς'] ∧ lowerChar 'σ' = ['σ'] := by decide
  induction cs generalizing before with
  | nil => cases hd
  | cons c cs ih =>
    rw [lowerFrom] at hd
    by_cases hc : c = 'Σ'
    · rw [if_pos hc, List.mem_cons] at hd
      rcases hd with rfl | hd
      · split
        · exact hsigma.1
        · exact hsigma.2
      · exact ih hd
    · rw [if_neg hc, List.mem_append] at hd
      rcases hd with hd | hd
      · exact lowerChar_of_mem_lowerChar hd
      · exact ih hd

theorem lowerFrom_eq_self {before cs : List Char} (h : ∀ c ∈ cs, lowerChar c = [c]) :
    lowerFrom before cs = cs := by
  have hsigma : lowerChar 'Σ' ≠ ['Σ'] := by decide
  rw [lowerFrom_eq_flatMap fun c hc he => hsigma (he ▸ h c hc), List.flatMap_congr h]
  exact List.flatMap_singleton' cs

theorem lower_lower (cs : List Char) : lower (lower cs) = lower cs :=
  lowerFrom_eq_self fun _ hc => lowerChar_of_mem_lowerFrom hc

theorem comp_toLower {α : Type} {f : Char → α}
    (h : ∀ n ∈ List.range' 0x41 26, f (Char.ofNat n).toLower = f (.ofNat n)) (c : Char) :
    f c.toLower = f c := by
  cases hc : c.isUpper with
  | false => rw [toLower_of_not_isUpper hc]
  | true =>
    obtain ⟨hlo, hhi⟩ := toNat_of_isUpper hc
    have hupper := h c.toNat (List.mem_range'_1.2 ⟨hlo, by omega⟩)
    rwa [Char.ofNat_toNat] at hupper

@[simp] theorem isBlank_toLower (c : Char) : isBlank c.toLower = isBlank c :=
  comp_toLower (by decide) c

@[simp] theorem isCased_toLower (c : Char) : isCased c.toLower = isCased c :=
  comp_toLower (by decide) c

@[simp] theorem isCaseIgnorable_toLower (c : Char) :
    isCaseIgnorable c.toLower = isCaseIgnorable c :=
  comp_toLower (by decide) c

@[simp] theorem lowerChar_toLower (c : Char) : lowerChar c.toLower = lowerChar c :=
  comp_toLower (by decide) c

@[simp] theorem utf8Size_toLower (c : Char) : c.toLower.utf8Size = c.utf8Size :=
  comp_toLower (by decide) c

@[simp] theorem toLower_eq_sigma_iff (c : Char) : c.toLower = 'Σ' ↔ c = 'Σ' :=
  iff_of_eq (comp_toLower (f := fun c => c = 'Σ') (fun n hn => propext (by revert n; decide)) c)

theorem casedNext_map_toLower (cs : List Char) :
    casedNext (cs.map Char.toLower) = casedNext cs := by
  have hcomp : isCaseIgnorable ∘ Char.toLower = isCaseIgnorable :=
    funext isCaseIgnorable_toLower
  rw [casedNext, casedNext, List.dropWhile_map, hcomp]
  cases cs.dropWhile isCaseIgnorable with
  | nil => rfl
  | cons c _ => exact isCased_toLower c

theorem lowerFrom_map_toLower (before cs : List Char) :
    lowerFrom (before.map Char.toLower) (cs.map Char.toLower) = lowerFrom before cs := by
  induction cs generalizing before with
  | nil => rfl
  | cons c cs ih =>
    have hrest := ih (c :: before)
    rw [List.map_cons] at hrest
    simp only [List.map_cons, lowerFrom, toLower_eq_sigma_iff, casedNext_map_toLower,
      lowerChar_toLower, hrest]

theorem trimStart_map_toLower (cs : List Char) :
    trimStart (cs.map Char.toLower) = (trimStart cs).map Char.toLower := by
  have hcomp : isBlank ∘ Char.toLower = isBlank := funext isBlank_toLower
  rw [trimStart, List.dropWhile_map, hcomp, trimStart]

theorem trimEnd_map_toLower (cs : List Char) :
    trimEnd (cs.map Char.toLower) = (trimEnd cs).map Char.toLower := by
  have hreversed := trimStart_map_toLower cs.reverse
  unfold trimStart at hreversed
  rw [trimEnd, ← List.map_reverse, hreversed, ← List.map_reverse, trimEnd]

theorem utf8Length_map_toLower (cs : List Char) :
    utf8Length (cs.map Char.toLower) = utf8Length cs := by
  induction cs with
  | nil => rfl
  | cons c cs ih => rw [List.map_cons, utf8Length, utf8Length, ih, utf8Size_toLower]

end RowSelect.Text

namespace RowSelect.Query

open RowSelect.Text

def SameLetters (cs ds : List Char) : Prop := cs.map Char.toLower = ds.map Char.toLower

instance (cs ds : List Char) : Decidable (SameLetters cs ds) :=
  inferInstanceAs (Decidable (cs.map Char.toLower = ds.map Char.toLower))

@[simp] theorem isQuote_toLower (c : Char) : isQuote c.toLower = isQuote c :=
  comp_toLower (by decide) c

theorem toLower_of_isQuote {c : Char} (h : isQuote c = true) : c.toLower = c := by
  simp only [isQuote, Bool.or_eq_true, beq_iff_eq] at h
  rcases h with rfl | rfl <;> decide

namespace SameLetters

variable {cs ds : List Char}

theorem exists_mem (h : SameLetters cs ds) {d : Char} (hd : d ∈ ds) :
    ∃ c ∈ cs, c.toLower = d.toLower := by
  have hmem := List.mem_map_of_mem (f := Char.toLower) hd
  rw [← h] at hmem
  exact List.mem_map.1 hmem

theorem not_isQuote (h : SameLetters cs ds) (hcs : ∀ c ∈ cs, isQuote c = false) :
    ∀ d ∈ ds, isQuote d = false := by
  intro d hd
  obtain ⟨c, hc, heq⟩ := h.exists_mem hd
  rw [← isQuote_toLower, ← heq, isQuote_toLower, hcs c hc]

theorem not_mem_quote (h : SameLetters cs ds) {quote : Char} (hquote : isQuote quote = true)
    (hcs : quote ∉ cs) : quote ∉ ds := by
  intro hd
  obtain ⟨c, hc, heq⟩ := h.exists_mem hd
  have hsame : isQuote c = true := by rw [← isQuote_toLower, heq, isQuote_toLower, hquote]
  rw [toLower_of_isQuote hsame, toLower_of_isQuote hquote] at heq
  exact hcs (heq ▸ hc)

theorem lower_eq (h : SameLetters cs ds) : lower cs = lower ds := by
  have hcs := lowerFrom_map_toLower [] cs
  rw [h, lowerFrom_map_toLower] at hcs
  exact hcs.symm

theorem utf8Length_eq (h : SameLetters cs ds) : utf8Length cs = utf8Length ds := by
  rw [← utf8Length_map_toLower cs, h, utf8Length_map_toLower]

theorem trimStart (h : SameLetters cs ds) : SameLetters (trimStart cs) (trimStart ds) := by
  rw [SameLetters, ← trimStart_map_toLower, h, trimStart_map_toLower]

theorem trimEnd (h : SameLetters cs ds) : SameLetters (trimEnd cs) (trimEnd ds) := by
  rw [SameLetters, ← trimEnd_map_toLower, h, trimEnd_map_toLower]

theorem trim (h : SameLetters cs ds) : SameLetters (trim cs) (trim ds) :=
  h.trimStart.trimEnd

end SameLetters

/-- The second text is the first one with other letters of ASCII in capitals, but for what stands
between the first quote and the next one of its kind. -/
inductive Recases : List Char → List Char → Prop where
  | unquoted {cs ds : List Char} (hcs : ∀ c ∈ cs, isQuote c = false) (h : SameLetters cs ds) :
      Recases cs ds
  | unclosed {before after before' after' : List Char} {quote : Char}
      (hbefore : ∀ c ∈ before, isQuote c = false) (hquote : isQuote quote = true)
      (hafter : quote ∉ after) (h : SameLetters before before') (h' : SameLetters after after') :
      Recases (before ++ quote :: after) (before' ++ quote :: after')
  | around {before body rest before' rest' : List Char} {quote : Char}
      (hbefore : ∀ c ∈ before, isQuote c = false) (hquote : isQuote quote = true)
      (hbody : quote ∉ body) (h : SameLetters before before') (h' : SameLetters rest rest') :
      Recases (before ++ quote :: (body ++ quote :: rest))
        (before' ++ quote :: (body ++ quote :: rest'))

theorem not_isQuote_of_any {cs : List Char} (h : cs.any isQuote = false) :
    ∀ c ∈ cs, isQuote c = false := by
  simpa using h

theorem not_isQuote_trimStart {cs : List Char} (h : ∀ c ∈ cs, isQuote c = false) :
    ∀ c ∈ trimStart cs, isQuote c = false :=
  fun c hc => h c ((List.dropWhile_sublist _).mem hc)

theorem foldCase_of_unclosed {before after : List Char} {quote : Char}
    (hbefore : ∀ c ∈ before, isQuote c = false) (hquote : isQuote quote = true)
    (hafter : quote ∉ after) :
    foldCase (before ++ quote :: after) = .error (utf8Length before) := by
  have hrun : ∀ c ∈ before, (!isQuote c) = true := fun c hc => by simp [hbefore c hc]
  have hstop : (!isQuote quote) = false := by simp [hquote]
  simp only [foldCase, takeWhile_append_stop hrun hstop, dropWhile_append_stop hrun hstop,
    lexLiteral?_eq_none_iff.2 hafter]

namespace Recases

variable {cs ds : List Char}

theorem trim (h : Recases cs ds) : Recases (trim cs) (trim ds) := by
  cases h with
  | unquoted hcs h =>
    exact .unquoted (fun c hc => not_isQuote_trimStart hcs c (mem_of_mem_trimEnd hc)) h.trim
  | unclosed hbefore hquote hafter h h' =>
    have hblank := not_isBlank_of_isQuote hquote
    rw [trim_append_solid hblank, trim_append_solid hblank]
    exact .unclosed (not_isQuote_trimStart hbefore) hquote
      (fun hmem => hafter (mem_of_mem_trimEnd hmem)) h.trimStart h'.trimEnd
  | around hbefore hquote hbody h h' =>
    have hblank := not_isBlank_of_isQuote hquote
    rw [trim_append_solid hblank, trim_append_solid hblank, trimEnd_append_solid hblank,
      trimEnd_append_solid hblank]
    exact .around (not_isQuote_trimStart hbefore) hquote hbody h.trimStart h'.trimEnd

theorem foldCase_eq (h : Recases cs ds) : foldCase ds = foldCase cs := by
  cases h with
  | unquoted hcs h =>
    rw [foldCase_eq_ok_iff.2 (.inl ⟨hcs, rfl⟩),
      foldCase_eq_ok_iff.2 (.inl ⟨h.not_isQuote hcs, rfl⟩), h.lower_eq]
  | unclosed hbefore hquote hafter h h' =>
    rw [foldCase_of_unclosed hbefore hquote hafter, foldCase_of_unclosed (h.not_isQuote hbefore)
      hquote (h'.not_mem_quote hquote hafter), h.utf8Length_eq]
  | around hbefore hquote hbody h h' =>
    rw [foldCase_eq_ok_iff.2 (.inr ⟨_, _, _, _, rfl, hbefore, hquote, hbody, rfl⟩),
      foldCase_eq_ok_iff.2 (.inr ⟨_, _, _, _, rfl, h.not_isQuote hbefore, hquote, hbody, rfl⟩),
      h.lower_eq, h'.lower_eq]

theorem parse_eq {t t' : String} (h : Recases t.toList t'.toList) : parse t' = parse t := by
  rw [parse, parse, read, read, h.trim.foldCase_eq]

end Recases

theorem foldCase_foldCase {cs ds : List Char} (h : foldCase cs = .ok ds) : foldCase ds = .ok ds := by
  rw [foldCase_eq_ok_iff]
  rcases foldCase_eq_ok_iff.1 h with
    ⟨hcs, rfl⟩ | ⟨before, quote, body, rest, -, hbefore, hquote, hbody, rfl⟩
  · exact .inl ⟨not_isQuote_of_lower hcs, (lower_lower cs).symm⟩
  · refine .inr ⟨_, quote, body, _, rfl, not_isQuote_of_lower hbefore, hquote, hbody, ?_⟩
    rw [lower_lower, lower_lower]

/-- Folding is done after one time, and it is blind to the case of letters outside the first quoted
literal, and so is whatever a query is read as and selects. -/
theorem foldCase_stable :
    (∀ cs ds, foldCase cs = .ok ds → foldCase ds = .ok ds) ∧
    (∀ cs ds, Recases cs ds → foldCase ds = foldCase cs) ∧
    ∀ t t' : String, Recases t.toList t'.toList →
      parse t' = parse t ∧ ∀ db, execute db t' = execute db t := by
  refine ⟨fun _ _ => foldCase_foldCase, fun _ _ h => h.foldCase_eq, fun t t' h => ?_⟩
  refine ⟨h.parse_eq, fun db => ?_⟩
  rw [execute_eq_bind, execute_eq_bind, h.parse_eq]

theorem foldCase_stable_sigma :
    foldCase "ΑΣ İ 'Σ\" A' Σ".toList = .ok "ας i̇ 'Σ\" A' σ".toList ∧
    foldCase "ας i̇ 'Σ\" A' σ".toList = .ok "ας i̇ 'Σ\" A' σ".toList ∧
    foldCase "Select \"AΣ".toList = .error 7 ∧
    foldCase "sELECT \"aΣ".toList = foldCase "Select \"AΣ".toList ∧
    parse "SELECT a.x FROM a WHERE a.k < 'Q'" = parse "select A.x From a wherE a.K < 'Q'" ∧
    execute stock "SELECT a.x FROM a WHERE a.k < 'Q'" =
      execute stock "select A.x From a wherE a.K < 'Q'" := by
  have hfold : foldCase "ΑΣ İ 'Σ\" A' Σ".toList = .ok "ας i̇ 'Σ\" A' σ".toList :=
    eq_ok_of_toOption (by decide)
  have hcut : "Select \"AΣ".toList = "Select ".toList ++ '"' :: "AΣ".toList := by
    decide
  have hopened : foldCase "Select \"AΣ".toList = .error 7 := by
    have hbefore := not_isQuote_of_any (by decide : "Select ".toList.any isQuote = false)
    rw [hcut, foldCase_of_unclosed hbefore (by decide) (by decide)]
    decide
  have hopen : Recases "Select \"AΣ".toList "sELECT \"aΣ".toList := by
    have hcut' : "sELECT \"aΣ".toList = "sELECT ".toList ++ '"' :: "aΣ".toList := by
      decide
    rw [hcut, hcut']
    exact .unclosed (not_isQuote_of_any (by decide)) (by decide) (by decide)
      (by decide) (by decide)
  have hquery : Recases "select A.x From a wherE a.K < 'Q'".toList
      "SELECT a.x FROM a WHERE a.k < 'Q'".toList := by
    have hcut : "select A.x From a wherE a.K < 'Q'".toList =
        "select A.x From a wherE a.K < ".toList ++ '\'' :: (['Q'] ++ '\'' :: []) := by
      decide
    have hcut' : "SELECT a.x FROM a WHERE a.k < 'Q'".toList =
        "SELECT a.x FROM a WHERE a.k < ".toList ++ '\'' :: (['Q'] ++ '\'' :: []) := by
      decide
    rw [hcut, hcut']
    exact .around (not_isQuote_of_any (by decide)) (by decide) (by decide)
      (by decide) (by decide)
  obtain ⟨hagain, hblind, hread⟩ := foldCase_stable
  obtain ⟨hparse, hexecute⟩ := hread _ _ hquery
  exact ⟨hfold, hagain _ _ hfold, hopened, hblind _ _ hopen, hparse, hexecute stock⟩

end RowSelect.Query
