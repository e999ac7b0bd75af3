import RowSelect.Query.Trace

/-!
Outcomes of computations that may fail, and the outcome that is left of a traced one once its
signals are dropped.
-/

set_option autoImplicit false

namespace RowSelect

variable {ε α β : Type}

@[simp] theorem ok_bind (a : α) (f : α → Except ε β) : Except.ok a >>= f = f a := rfl

@[simp] theorem error_bind (e : ε) (f : α → Except ε β) :
    (Except.error e : Except ε α) >>= f = .error e := rfl

theorem bind_eq_ok {x : Except ε α} {f : α → Except ε β} {b : β} :
    x >>= f = .ok b ↔ ∃ a, x = .ok a ∧ f a = .ok b := by
  cases x <;> simp [bind, Except.bind]

theorem bind_eq_error {x : Except ε α} {f : α → Except ε β} {e : ε} :
    x >>= f = .error e ↔ x = .error e ∨ ∃ a, x = .ok a ∧ f a = .error e := by
  cases x <;> simp [bind, Except.bind]

theorem map_eq_ok_iff {x : Except ε α} {f : α → β} {b : β} :
    x.map f = .ok b ↔ ∃ a, x = .ok a ∧ f a = b := by
  cases x <;> simp [Except.map]

theorem mapM_eq_ok {f : α → Except ε β} {g : α → β} {xs : List α}
    (h : ∀ x ∈ xs, f x = .ok (g x)) : xs.mapM f = .ok (xs.map g) := by
  induction xs with
  | nil => rfl
  | cons x rest ih =>
    rw [List.mapM_cons, h x (List.mem_cons_self ..), ih fun y hy => h y (List.mem_cons_of_mem _ hy)]
    rfl

theorem exists_mapM_eq_error {f : α → Except ε β} {xs : List α}
    (h : ∃ x ∈ xs, ∃ e, f x = .error e) : ∃ e, xs.mapM f = .error e := by
  obtain ⟨x, hx, e, he⟩ := h
  induction xs with
  | nil => cases hx
  | cons y rest ih =>
    rw [List.mapM_cons]
    cases hy : f y with
    | error e' => exact ⟨e', rfl⟩
    | ok b =>
      rcases List.mem_cons.1 hx with rfl | hx
      · rw [he] at hy
        cases hy
      · obtain ⟨e', hrest⟩ := ih hx
        exact ⟨e', by rw [hrest]; rfl⟩

theorem foldlM_eq_error_iff {step : β → α → Except ε β} {xs : List α} {b : β} {e : ε} :
    xs.foldlM step b = .error e ↔
      ∃ before x after b', xs = before ++ x :: after ∧ before.foldlM step b = .ok b' ∧
        step b' x = .error e := by
  induction xs generalizing b with
  | nil => simp [pure, Except.pure]
  | cons x rest ih =>
    rw [List.foldlM_cons, bind_eq_error]
    constructor
    · intro h
      rcases h with hx | ⟨b', hx, hrest⟩
      · exact ⟨[], x, rest, b, rfl, rfl, hx⟩
      · obtain ⟨before, y, after, c, rfl, hbefore, hy⟩ := ih.1 hrest
        exact ⟨x :: before, y, after, c, rfl, bind_eq_ok.2 ⟨b', hx, hbefore⟩, hy⟩
    · intro h
      obtain ⟨before, y, after, c, hxs, hbefore, hy⟩ := h
      cases before with
      | nil =>
        cases hxs
        cases hbefore
        exact .inl hy
      | cons z before =>
        cases hxs
        rw [List.foldlM_cons, bind_eq_ok] at hbefore
        obtain ⟨b', hx, hbefore⟩ := hbefore
        exact .inr ⟨b', hx, ih.2 ⟨before, y, after, c, rfl, hbefore, hy⟩⟩

section MapError

variable {ε' : Type} (f : ε → ε')

@[simp] theorem mapError_ok (a : α) : (Except.ok a : Except ε α).mapError f = .ok a := rfl

@[simp] theorem mapError_error (e : ε) :
    (Except.error e : Except ε α).mapError f = .error (f e) := rfl

theorem mapError_eq_ok_iff {x : Except ε α} {a : α} : x.mapError f = .ok a ↔ x = .ok a := by
  cases x <;> simp

theorem mapError_eq_error_iff {x : Except ε α} {e : ε'} :
    x.mapError f = .error e ↔ ∃ e', x = .error e' ∧ f e' = e := by
  cases x <;> simp

end MapError

theorem eq_ok_of_toOption {x : Except ε α} {a : α} (h : x.toOption = some a) : x = .ok a := by
  cases x with
  | error e => cases h
  | ok b => rw [Option.some.inj h]

namespace Query.Traced

@[simp] theorem outcome_pure (a : α) : (pure a : Traced α).outcome = .ok a := rfl

@[simp] theorem outcome_ofExcept (x : Except Failure α) : (ofExcept x).outcome = x := rfl

@[simp] theorem outcome_emit (s : Signal) : (emit s).outcome = .ok () := rfl

@[simp] theorem outcome_bind (x : Traced α) (f : α → Traced β) :
    (x >>= f).outcome = x.outcome >>= fun a => (f a).outcome := by
  change (Traced.bind x f).outcome = _
  cases h : x.outcome <;> simp [Traced.bind, h, Bind.bind, Except.bind]

end Query.Traced

end RowSelect
