import RowSelect.Proofs.SchemaFailures
import RowSelect.Proofs.SelectionFaults

/-!
The signals of a run. A query that fails has told of nothing but its planning. One that succeeds
tells of its planning, and after that of one scan after the other: of the first table, and of each
further table from which something is requested.
-/

set_option autoImplicit false

namespace RowSelect.Query

open Selection (RequestsFrom Selects columnOf? requestsFrom_iff)

def Event.ofPlanning : Event → Bool
  | parsed .. | associated .. | planned .. => true
  | _ => false

def keptRows (db : Database) (s : Selection) (p : Predicate) (name : String) : Nat :=
  match db.table? name with
  | some t => (scanIndexed name t s p).length
  | none => 0

/-- What a scan tells: the rows at which the predicate failed, and how many rows were kept. -/
structure ScanReport where
  table : String
  passedOver : List (Nat × Failure)
  kept : Nat

namespace ScanReport

def events (r : ScanReport) : List Event := r.passedOver.map fun (i, e) => .rowPassedOver i e

def signals (r : ScanReport) : List Signal :=
  .enter (.scan r.table) :: (r.events.map .event ++ [.returned r.kept]) ++ [.exit]

end ScanReport

/-- A query that a database can answer, with what is found out before the first scan. -/
structure Plan (db : Database) (text : String) where
  statement : Statement
  selection : Selection
  predicate : Predicate
  first : String
  table : Table
  others : List String
  parse_eq : parse text = .ok statement
  tables_eq : statement.tables = first :: others
  table?_eq : db.table? first = some table
  associate_eq : associate db statement.tables statement.columns = .ok selection
  build_eq : Predicate.build db statement.condition = .ok predicate

namespace Plan

variable {db : Database} {text : String}

theorem exists_of_execute {rows : List Row} (h : execute db text = .ok rows) :
    Nonempty (Plan db text) := by
  rw [execute_eq_bind] at h
  obtain ⟨s, hparse, h⟩ := bind_eq_ok.1 h
  obtain ⟨selection, hassociate, h⟩ := bind_eq_ok.1 h
  obtain ⟨p, hp, h⟩ := bind_eq_ok.1 h
  cases htables : s.tables with
  | nil => simp [htables] at h
  | cons first others =>
    have hexist := (Selection.associate_eq_ok_iff.1 hassociate).exist first (by simp [htables])
    obtain ⟨t, ht⟩ := Option.isSome_iff_exists.1 hexist
    exact ⟨⟨s, selection, p, first, t, others, (mapError_eq_ok_iff _).1 hparse, htables, ht,
      hassociate, hp⟩⟩

def later (plan : Plan db text) : List String :=
  plan.others.filter fun name => ∃ w ∈ plan.statement.columns, RequestsFrom name w

def reports (plan : Plan db text) : List ScanReport :=
  ⟨plan.first, failures plan.table plan.predicate,
      keptRows db plan.selection plan.predicate plan.first⟩ ::
    plan.later.map fun name => ⟨name, [], keptRows db plan.selection .always name⟩

end Plan

theorem failures_always (t : Table) : failures t .always = [] := by
  simp [failures, Predicate.evaluate]

theorem mem_failures_iff {t : Table} {p : Predicate} {index : Nat} {e : Failure} :
    (index, e) ∈ failures t p ↔ index < t.length ∧ p.evaluate index = .error e := by
  simp only [failures, List.mem_filterMap, List.mem_range]
  constructor
  · intro h
    obtain ⟨i, hi, h⟩ := h
    cases he : p.evaluate i with
    | ok b => simp [he] at h
    | error e' =>
      simp only [he, Option.some.injEq, Prod.mk.injEq] at h
      obtain ⟨rfl, rfl⟩ := h
      exact ⟨hi, he⟩
  · intro h
    obtain ⟨hi, he⟩ := h
    exact ⟨index, hi, by simp [he]⟩

theorem pairwise_failures (t : Table) (p : Predicate) :
    (failures t p).Pairwise fun a b => a.1 < b.1 := by
  refine List.pairwise_filterMap.2 (List.pairwise_lt_range.imp ?_)
  intro i j hij a ha b hb
  cases hi : p.evaluate i with
  | ok b => simp [hi] at ha
  | error e =>
    cases hj : p.evaluate j with
    | ok b => simp [hj] at hb
    | error e' =>
      simp only [hi, Option.some.injEq] at ha
      simp only [hj, Option.some.injEq] at hb
      rw [← ha, ← hb]
      exact hij

namespace Traced

variable {α β : Type}

@[simp] theorem signals_pure (a : α) : (pure a : Traced α).signals = [] := rfl

@[simp] theorem signals_ofExcept (x : Except Failure α) : (ofExcept x).signals = [] := rfl

@[simp] theorem signals_emit (s : Signal) : (emit s).signals = [s] := rfl

theorem signals_bind_of_ok {x : Traced α} {a : α} (h : x.outcome = .ok a) (f : α → Traced β) :
    (x >>= f).signals = x.signals ++ (f a).signals := by
  change (Traced.bind x f).signals = _
  rw [Traced.bind, h]

theorem signals_bind_of_error {x : Traced α} {e : Failure} (h : x.outcome = .error e)
    (f : α → Traced β) : (x >>= f).signals = x.signals := by
  change (Traced.bind x f).signals = _
  rw [Traced.bind, h]

theorem signals_bind_pure (x : Traced α) (f : α → β) :
    (x >>= fun a => pure (f a)).signals = x.signals := by
  cases h : x.outcome with
  | ok a => rw [signals_bind_of_ok h, signals_pure, List.append_nil]
  | error e => rw [signals_bind_of_error h]

end Traced

open Traced

theorem outcome_traceParse_of_ok {text : String} {s : Statement} (h : parse text = .ok s) :
    (traceParse text).outcome = .ok s := by
  rw [outcome_traceParse, h, mapError_ok]

theorem signals_traceParse {text : String} {s : Statement} (h : parse text = .ok s) :
    (traceParse text).signals =
      [.event (.parsed s.columns.length s.tables.length s.condition.isSome)] := by
  rw [traceParse, h, mapError_ok, signals_bind_of_ok rfl, signals_bind_of_ok rfl]
  rfl

theorem signals_traceAssociate {db : Database} {s : Statement} {selection : Selection}
    (h : associate db s.tables s.columns = .ok selection) :
    (traceAssociate db s).signals =
      [.event (.associated selection.entries.length s.columns.length)] := by
  rw [traceAssociate, h, signals_bind_of_ok rfl, signals_bind_of_ok rfl]
  rfl

theorem signals_findTable {db : Database} {name : String} {t : Table}
    (ht : db.table? name = some t) : (findTable db name).signals = [] := by
  rw [findTable, ht, signals_ofExcept]

theorem signals_traceScan {db : Database} {name : String} {t : Table}
    (ht : db.table? name = some t) (s : Selection) (p : Predicate) :
    (traceScan name t s p).signals =
      ScanReport.signals ⟨name, failures t p, keptRows db s p name⟩ := by
  simp only [keptRows, ht]
  rw [traceScan, within, signals_bind_of_ok rfl, signals_bind_of_ok rfl]
  simp [ScanReport.signals, ScanReport.events, emitAll, Function.comp_def]

theorem signals_mergeTables {db : Database} {tables columns : List String} {s : Selection}
    (hs : Selects db tables columns s) {names : List String} (hsub : ∀ n ∈ names, n ∈ tables)
    (rows : List (Nat × Row)) :
    (mergeTables db s rows names).signals =
      (names.filter fun name => ∃ w ∈ columns, RequestsFrom name w).flatMap fun name =>
        ScanReport.signals ⟨name, [], keptRows db s .always name⟩ := by
  -- The rows found so far do not matter to what is told.
  induction names generalizing rows with
  | nil => rfl
  | cons name rest ih =>
    obtain ⟨hmem, hrest⟩ := List.forall_mem_cons.1 hsub
    obtain ⟨t, ht⟩ := Option.isSome_iff_exists.1 (hs.exist name hmem)
    have hrequested : (columns.filterMap (columnOf? name)).isEmpty = false ↔
        ∃ w ∈ columns, RequestsFrom name w := by
      simp [requestsFrom_iff, Option.isSome_iff_ne_none]
    rw [mergeTables, hs.columns?_eq hmem, Option.getD_some]
    cases hempty : (columns.filterMap (columnOf? name)).isEmpty with
    | true =>
      have hnot : ¬∃ w ∈ columns, RequestsFrom name w := by simp [← hrequested, hempty]
      rw [if_pos rfl, List.filter_cons_of_neg (by simpa using hnot), ih hrest]
    | false =>
      have hsome := hrequested.1 hempty
      rw [if_neg (by simp), List.filter_cons_of_pos (by simpa using hsome), List.flatMap_cons,
        signals_bind_of_ok (outcome_findTable ht), signals_findTable ht, List.nil_append,
        signals_bind_of_ok (outcome_traceScan name t s .always), signals_traceScan ht,
        failures_always, ih hrest]

theorem signals_traceRun_of_error {db : Database} {text : String} {e : Failure}
    (h : execute db text = .error e) :
    ∃ es : List Event, (∀ x ∈ es, x.ofPlanning = true) ∧
      (traceRun db text).signals = es.map .event := by
  rcases execute_eq_error_iff.1 h with
    ⟨fault, hparse, -⟩ | ⟨s, hparse, hassociate | ⟨selection, hassociate, hbuild⟩⟩
  · refine ⟨[], by simp, ?_⟩
    have houtcome : (traceParse text).outcome = .error (.invalidSyntax fault) := by
      rw [outcome_traceParse, hparse, mapError_error]
    rw [traceRun, signals_bind_of_error houtcome, traceParse, hparse, mapError_error,
      signals_bind_of_error rfl]
    rfl
  · refine ⟨[.parsed s.columns.length s.tables.length s.condition.isSome],
      by simp [Event.ofPlanning], ?_⟩
    rw [traceRun, signals_bind_of_ok (outcome_traceParse_of_ok hparse), signals_traceParse hparse,
      signals_bind_of_error ((outcome_traceAssociate db s).trans hassociate), traceAssociate,
      hassociate, signals_bind_of_error rfl]
    rfl
  · refine ⟨[.parsed s.columns.length s.tables.length s.condition.isSome,
      .associated selection.entries.length s.columns.length], by simp [Event.ofPlanning], ?_⟩
    rw [traceRun, signals_bind_of_ok (outcome_traceParse_of_ok hparse), signals_traceParse hparse,
      signals_bind_of_ok ((outcome_traceAssociate db s).trans hassociate),
      signals_traceAssociate hassociate, hbuild, signals_bind_of_error rfl]
    rfl

theorem Plan.signals_traceRun {db : Database} {text : String} (plan : Plan db text) :
    ∃ es : List Event, (∀ x ∈ es, x.ofPlanning = true) ∧
      (traceRun db text).signals = es.map .event ++ plan.reports.flatMap ScanReport.signals := by
  obtain ⟨s, selection, p, first, t, others, hparse, htables, ht, hassociate, hbuild⟩ := plan
  have hselects := Selection.associate_eq_ok_iff.1 hassociate
  have hsub : ∀ name ∈ others, name ∈ s.tables := by
    intro name hname
    rw [htables]
    exact List.mem_cons_of_mem _ hname
  refine ⟨[.parsed s.columns.length s.tables.length s.condition.isSome,
    .associated selection.entries.length s.columns.length,
    .planned selection.entries.length (!p.isAlways)], by simp [Event.ofPlanning], ?_⟩
  rw [traceRun, signals_bind_of_ok (outcome_traceParse_of_ok hparse), signals_traceParse hparse,
    signals_bind_of_ok ((outcome_traceAssociate db s).trans hassociate),
    signals_traceAssociate hassociate, hbuild, signals_bind_of_ok rfl, signals_bind_of_ok rfl,
    hselects.tables_eq, htables]
  rw [signals_bind_of_ok (outcome_findTable ht), signals_findTable ht,
    signals_bind_of_ok (outcome_traceScan first t selection p), signals_traceScan ht,
    signals_bind_pure, signals_mergeTables hselects hsub]
  simp [Plan.reports, Plan.later, List.flatMap_map]

end RowSelect.Query
