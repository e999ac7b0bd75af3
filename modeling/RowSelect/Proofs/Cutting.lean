import Mathlib.Data.List.TakeWhile

/-!
Texts cut in two at the first character that breaks off a run.
-/

set_option autoImplicit false

namespace RowSelect

variable {α : Type} {p : α → Bool}

theorem takeWhile_append_stop {run rest : List α} {x : α} (hrun : ∀ y ∈ run, p y = true)
    (hx : p x = false) : (run ++ x :: rest).takeWhile p = run := by
  rw [List.takeWhile_append_of_pos hrun, List.takeWhile_cons_of_neg (by simp [hx]),
    List.append_nil]

theorem dropWhile_append_stop {run rest : List α} {x : α} (hrun : ∀ y ∈ run, p y = true)
    (hx : p x = false) : (run ++ x :: rest).dropWhile p = x :: rest := by
  rw [List.dropWhile_append_of_pos hrun, List.dropWhile_cons_of_neg (by simp [hx])]

theorem cut_append (xs : List α) {ys : List α} (hys : ∀ y ∈ ys.head?, p y = false) :
    (xs ++ ys).takeWhile p = xs.takeWhile p ∧ (xs ++ ys).dropWhile p = xs.dropWhile p ++ ys := by
  induction xs with
  | nil =>
    cases ys with
    | nil => exact ⟨rfl, rfl⟩
    | cons y ys => simp [hys y rfl]
  | cons x xs ih => cases hx : p x <;> simp [hx, ih]

theorem cut_of_dropWhile {xs rest : List α} {x : α} (h : xs.dropWhile p = x :: rest) :
    xs = xs.takeWhile p ++ x :: rest ∧ (∀ y ∈ xs.takeWhile p, p y = true) ∧ p x = false := by
  have hcut := List.takeWhile_append_dropWhile (p := p) (l := xs)
  have hstop := List.head?_dropWhile_not p xs
  rw [h] at hcut hstop
  exact ⟨hcut.symm, fun y hy => List.mem_takeWhile_imp hy, hstop⟩

section Separator

variable [DecidableEq α] {run rest xs : List α} {x y : α}

theorem bne_of_not_mem (h : x ∉ run) : ∀ y ∈ run, (y != x) = true := by
  intro y hy
  exact bne_iff_ne.2 fun he => h (he ▸ hy)

theorem takeWhile_bne_append (h : x ∉ run) : (run ++ x :: rest).takeWhile (· != x) = run :=
  takeWhile_append_stop (bne_of_not_mem h) (bne_self_eq_false x)

theorem dropWhile_bne_append (h : x ∉ run) : (run ++ x :: rest).dropWhile (· != x) = x :: rest :=
  dropWhile_append_stop (bne_of_not_mem h) (bne_self_eq_false x)

theorem cut_of_dropWhile_bne (h : xs.dropWhile (· != x) = y :: rest) :
    xs = xs.takeWhile (· != x) ++ x :: rest ∧ x ∉ xs.takeWhile (· != x) := by
  obtain ⟨hcut, hrun, hy⟩ := cut_of_dropWhile h
  obtain rfl : y = x := by simpa using hy
  refine ⟨hcut, ?_⟩
  intro hmem
  have hne := hrun y hmem
  simp at hne

theorem dropWhile_bne_eq_nil_iff : xs.dropWhile (· != x) = [] ↔ x ∉ xs := by
  rw [List.dropWhile_eq_nil_iff]
  constructor
  · intro h hmem
    have hne := h x hmem
    simp at hne
  · exact bne_of_not_mem

end Separator

end RowSelect
