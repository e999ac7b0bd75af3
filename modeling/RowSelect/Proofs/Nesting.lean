import RowSelect.Proofs.Outcome
import RowSelect.Query.Execution

/-!
Spans in the signals of a run and in its log. A traced computation leaves every span that it enters,
so what is logged of it can be put together from what is logged of its parts, and in the log every
event and count stands in the innermost span that is open.
-/

set_option autoImplicit false

namespace RowSelect.Query

inductive Balanced : List Signal → Prop where
  | nil : Balanced []
  | event (e : Event) {rest : List Signal} (h : Balanced rest) : Balanced (.event e :: rest)
  | returned (rows : Nat) {rest : List Signal} (h : Balanced rest) :
      Balanced (.returned rows :: rest)
  | span (s : Span) {inner rest : List Signal} (hinner : Balanced inner) (h : Balanced rest) :
      Balanced (.enter s :: (inner ++ .exit :: rest))

/-- Log entries inside of open spans, these given from the inside. A span that the entries open they
close again, and an event or a count belongs to the innermost span that is open. -/
inductive Nested : List Span → List LogEntry → Prop where
  | nil (spans : List Span) : Nested spans []
  | event (spans : List Span) (e : Event) {rest : List LogEntry} (h : Nested spans rest) :
      Nested spans (.event spans.head? e :: rest)
  | recorded (s : Span) (spans : List Span) (rows : Nat) {rest : List LogEntry}
      (h : Nested (s :: spans) rest) : Nested (s :: spans) (.recorded s rows :: rest)
  | span (s : Span) {spans : List Span} {inner rest : List LogEntry}
      (hinner : Nested (s :: spans) inner) (h : Nested spans rest) :
      Nested spans (.opened s :: (inner ++ .closed s :: rest))

theorem Nested.append {spans : List Span} {xs ys : List LogEntry} (h : Nested spans xs)
    (h' : Nested spans ys) : Nested spans (xs ++ ys) := by
  induction h with
  | nil => exact h'
  | event spans e _ ih => exact .event spans e (ih h')
  | recorded s spans rows _ ih => exact .recorded s spans rows (ih h')
  | span s hinner _ _ ih =>
    have hspan := Nested.span s hinner (ih h')
    simpa using hspan

theorem Balanced.append {xs ys : List Signal} (h : Balanced xs) (h' : Balanced ys) :
    Balanced (xs ++ ys) := by
  induction h with
  | nil => exact h'
  | event e _ ih => exact .event e ih
  | returned rows _ ih => exact .returned rows ih
  | span s hinner _ _ ih =>
    have hspan := Balanced.span s hinner ih
    simpa using hspan

theorem balanced_events (es : List Event) : Balanced (es.map .event) := by
  induction es with
  | nil => exact .nil
  | cons e es ih => exact .event e ih

theorem Balanced.flatMap {α : Type} {f : α → List Signal} {xs : List α}
    (h : ∀ x ∈ xs, Balanced (f x)) : Balanced (xs.flatMap f) := by
  induction xs with
  | nil => exact .nil
  | cons x xs ih =>
    obtain ⟨hx, hxs⟩ := List.forall_mem_cons.1 h
    exact hx.append (ih hxs)

section Log

variable {level : Level}

/-- What is logged of balanced signals does not depend on what follows, nor the other way round. -/
theorem logFrom_append {xs : List Signal} (h : Balanced xs) (spans : List Span)
    (ys : List Signal) :
    logFrom level spans (xs ++ ys) = logFrom level spans xs ++ logFrom level spans ys := by
  induction h generalizing spans ys with
  | nil => rfl
  | event e _ ih =>
    simp only [List.cons_append, logFrom, ih]
    split <;> rfl
  | returned rows _ ih =>
    simp only [List.cons_append, logFrom, ih]
    cases currentSpan level spans <;> rfl
  | span s hinner _ ihinner ih =>
    -- Behind the exit the open spans are again those of the beginning.
    simp only [List.cons_append, List.append_assoc, logFrom, ihinner, ih]
    split <;> simp

theorem logFrom_flatMap {α : Type} {f : α → List Signal} {xs : List α}
    (h : ∀ x ∈ xs, Balanced (f x)) (spans : List Span) :
    logFrom level spans (xs.flatMap f) = xs.flatMap fun x => logFrom level spans (f x) := by
  induction xs with
  | nil => rfl
  | cons x xs ih =>
    obtain ⟨hx, hxs⟩ := List.forall_mem_cons.1 h
    rw [List.flatMap_cons, logFrom_append hx, ih hxs, List.flatMap_cons]

theorem logFrom_events (spans : List Span) (es : List Event) :
    logFrom level spans (es.map .event) =
      (es.filter fun e => e.level.shownAt level).map (.event (currentSpan level spans)) := by
  induction es with
  | nil => rfl
  | cons e es ih =>
    rw [List.map_cons, logFrom, ih, List.filter_cons]
    split <;> rfl

theorem logFrom_within {s : Span} {inner : List Signal} (hs : s.level.shownAt level = true)
    (h : Balanced inner) (spans : List Span) :
    logFrom level spans (.enter s :: inner ++ [.exit]) =
      .opened s :: (logFrom level (s :: spans) inner ++ [.closed s]) := by
  simp [logFrom, hs, logFrom_append h]

theorem nested_logFrom {signals : List Signal} (h : Balanced signals) (spans : List Span) :
    Nested (spans.filter fun s => s.level.shownAt level) (logFrom level spans signals) := by
  induction h generalizing spans with
  | nil => exact .nil _
  | event e _ ih =>
    rw [logFrom]
    split
    · rw [currentSpan, ← List.head?_filter]
      exact .event _ e (ih spans)
    · exact ih spans
  | returned rows _ ih =>
    rw [logFrom, currentSpan, ← List.head?_filter]
    have hrest := ih spans
    cases hshown : spans.filter fun s => s.level.shownAt level with
    | nil => rwa [hshown] at hrest
    | cons s outer => exact .recorded s outer rows (hshown ▸ hrest)
  | span s hinner _ ihinner ih =>
    have hnested := ihinner (s :: spans)
    rw [logFrom]
    split
    · rename_i hs
      rw [logFrom_append hinner, logFrom, if_pos hs]
      rw [List.filter_cons, if_pos hs] at hnested
      exact .span s hnested (ih spans)
    · rename_i hs
      -- What a span that is not logged holds comes to stand in the span around it.
      rw [logFrom_append hinner, logFrom, if_neg hs]
      rw [List.filter_cons, if_neg hs] at hnested
      exact hnested.append (ih spans)

end Log

end RowSelect.Query
