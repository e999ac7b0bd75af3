import RowSelect.Proofs.Nesting
import RowSelect.Proofs.RunSignals

/-!
The log of queries. It is one block for each query, and a block tells how the query ended; with all
details it has the scans one by one, each with its own count of rows. With fewer details the scans
are not logged, so that their counts are recorded on the query, and the count of the result comes
after them.
-/

set_option autoImplicit false

namespace RowSelect.Query

namespace LogEntry

def isBoundary : LogEntry → Bool
  | opened _ | closed _ => true
  | _ => false

def count? : LogEntry → Option (Span × Nat)
  | recorded current rows => some (current, rows)
  | _ => none

def ending? : LogEntry → Option Event
  | event _ (.executed rows) => some (.executed rows)
  | event _ (.rejected e) => some (.rejected e)
  | _ => none

def passedOver? : LogEntry → Option (Option Span × Nat × Failure)
  | event current (.rowPassedOver index e) => some (current, index, e)
  | _ => none

end LogEntry

open LogEntry

def queryLog (db : Database) (level : Level) (text : String) : List LogEntry :=
  log level (traceExecute db text).signals

/-- What a log with all details tells of the scans of a query. -/
structure TellsScans {db : Database} {text : String} (plan : Plan db text) (rows : List Row)
    (block : List LogEntry) : Prop where
  boundaries : block.filter isBoundary =
    .opened (.query text) ::
      ((plan.first :: plan.later).flatMap fun name =>
        [.opened (.scan name), .closed (.scan name)]) ++ [.closed (.query text)]
  counts : block.filterMap count? =
    (.scan plan.first, keptRows db plan.selection plan.predicate plan.first) ::
      (plan.later.map fun name => (.scan name, keptRows db plan.selection .always name)) ++
      [(.query text, rows.length)]
  passedOver : ∃ passed : List (Nat × Failure),
    block.filterMap passedOver? = passed.map (some (.scan plan.first), ·) ∧
    (passed.Pairwise fun a b => a.1 < b.1) ∧
    ∀ index e, (index, e) ∈ passed ↔
      index < plan.table.length ∧ plan.predicate.evaluate index = .error e

/-- The log of one query, by how the query ends: its span around everything else, one event for the
end, and counts of rows only if there is a result. -/
structure IsBlock (db : Database) (level : Level) (text : String) (block : List LogEntry) :
    Prop where
  spans : ∃ inner, block = .opened (.query text) :: (inner ++ [.closed (.query text)]) ∧
    Nested [.query text] inner
  failed : ∀ e, execute db text = .error e →
    block.filterMap ending? = [.rejected e] ∧ block.filterMap count? = [] ∧
      block.filter isBoundary = [.opened (.query text), .closed (.query text)]
  succeeded : ∀ rows, execute db text = .ok rows →
    block.filterMap ending? = [.executed rows.length] ∧
      (block.filterMap count?).getLast? = some (.query text, rows.length)
  traced : level = .trace → ∀ rows, execute db text = .ok rows →
    ∃ plan : Plan db text, TellsScans plan rows block

theorem shownAt_of_ofPlanning {level : Level} (hlevel : level = .trace ∨ level = .debug)
    {e : Event} (h : e.ofPlanning = true) : e.level.shownAt level = true := by
  rcases hlevel with rfl | rfl <;> cases e <;> first | rfl | cases h

section Planning

variable {es : List Event} {current : Option Span}

theorem logFrom_planning {level : Level} (hlevel : level = .trace ∨ level = .debug)
    (h : ∀ e ∈ es, e.ofPlanning = true) (spans : List Span) :
    logFrom level spans (es.map .event) = es.map (.event (currentSpan level spans)) := by
  rw [logFrom_events, List.filter_eq_self.2 fun e he => shownAt_of_ofPlanning hlevel (h e he)]

theorem filterMap_block {β : Type} {f : LogEntry → Option β} {s : Span}
    (hopened : f (.opened s) = none) (hf : ∀ e, e.ofPlanning = true → f (.event current e) = none)
    (h : ∀ e ∈ es, e.ofPlanning = true) (rest : List LogEntry) :
    (LogEntry.opened s :: (es.map (.event current) ++ rest)).filterMap f = rest.filterMap f := by
  have hplanning : (es.map (LogEntry.event current)).filterMap f = [] := by
    rw [List.filterMap_map, List.filterMap_eq_nil_iff]
    exact fun e he => hf e (h e he)
  rw [List.filterMap_cons_none hopened, List.filterMap_append, hplanning, List.nil_append]

theorem ending?_planning (e : Event) (h : e.ofPlanning = true) :
    ending? (.event current e) = none := by
  cases e <;> first | rfl | cases h

theorem passedOver?_planning (e : Event) (h : e.ofPlanning = true) :
    passedOver? (.event current e) = none := by
  cases e <;> first | rfl | cases h

theorem filterMap_count?_events : (es.map (LogEntry.event current)).filterMap count? = [] := by
  simp [List.filterMap_map, Function.comp_def, count?]

theorem filter_isBoundary_events : (es.map (LogEntry.event current)).filter isBoundary = [] := by
  simp [List.filter_map, Function.comp_def, isBoundary]

end Planning

namespace ScanReport

variable (r : ScanReport)

theorem balanced_signals : Balanced r.signals :=
  .span (.scan r.table) ((balanced_events r.events).append (.returned r.kept .nil)) .nil

theorem logFrom_signals_trace (spans : List Span) :
    logFrom .trace spans r.signals =
      .opened (.scan r.table) :: (r.events.map (.event (some (.scan r.table))) ++
        [.recorded (.scan r.table) r.kept, .closed (.scan r.table)]) := by
  have hspans : ∀ s : Span, s.level.shownAt .trace = true := fun s => by cases s <;> rfl
  have hevents : ∀ e : Event, e.level.shownAt .trace = true := fun e => by cases e <;> rfl
  rw [signals, logFrom_within (hspans _) ((balanced_events _).append (.returned r.kept .nil)),
    logFrom_append (balanced_events _), logFrom_events, List.filter_eq_self.2 fun e _ => hevents e,
    List.append_assoc]
  rfl

theorem logFrom_signals_debug (text : String) :
    logFrom .debug [.query text] r.signals = [.recorded (.query text) r.kept] := by
  have hhidden : r.events.filter (fun e => e.level.shownAt .debug) = [] := by
    simp [events, List.filter_map, Function.comp_def, Event.level, Level.shownAt, Level.rank]
  have hspan : ¬(Span.scan r.table).level.shownAt .debug = true := Bool.false_ne_true
  rw [signals, List.cons_append, List.append_assoc, logFrom, if_neg hspan,
    logFrom_append (balanced_events _), logFrom_events, hhidden]
  rfl

end ScanReport

section Runs

variable {db : Database} {level : Level} {text : String}

theorem balanced_traceRun (db : Database) (text : String) :
    Balanced (traceRun db text).signals := by
  cases h : execute db text with
  | error e =>
    obtain ⟨es, -, hes⟩ := signals_traceRun_of_error h
    rw [hes]
    exact balanced_events es
  | ok rows =>
    obtain ⟨plan⟩ := Plan.exists_of_execute h
    obtain ⟨es, -, hes⟩ := plan.signals_traceRun
    rw [hes]
    exact (balanced_events es).append (.flatMap fun r _ => r.balanced_signals)

def innerSignals (db : Database) (text : String) : List Signal :=
  (traceRun db text).signals ++
    match execute db text with
    | .ok rows => [.returned rows.length, .event (.executed rows.length)]
    | .error e => [.event (.rejected e)]

theorem balanced_innerSignals (db : Database) (text : String) :
    Balanced (innerSignals db text) := by
  refine (balanced_traceRun db text).append ?_
  cases execute db text with
  | error e => exact .event _ .nil
  | ok rows => exact .returned _ (.event _ .nil)

theorem signals_traceExecute (db : Database) (text : String) :
    (traceExecute db text).signals = .enter (.query text) :: innerSignals db text ++ [.exit] := rfl

theorem balanced_traceExecute (db : Database) (text : String) :
    Balanced (traceExecute db text).signals :=
  .span (.query text) (balanced_innerSignals db text) .nil

theorem logOfQueries_eq (db : Database) (level : Level) (texts : List String) :
    logOfQueries db level texts = texts.flatMap (queryLog db level) :=
  logFrom_flatMap (fun text _ => balanced_traceExecute db text) []

section Shown

variable (hlevel : level = .trace ∨ level = .debug)

include hlevel

theorem shownAt_query (text : String) : (Span.query text).level.shownAt level = true := by
  rcases hlevel with rfl | rfl <;> rfl

theorem currentSpan_query (text : String) :
    currentSpan level [.query text] = some (.query text) := by
  rw [currentSpan, List.find?_cons, shownAt_query hlevel]

theorem queryLog_eq (db : Database) (text : String) :
    queryLog db level text = .opened (.query text) ::
      (logFrom level [.query text] (innerSignals db text) ++ [.closed (.query text)]) := by
  rw [queryLog, log, signals_traceExecute,
    logFrom_within (shownAt_query hlevel text) (balanced_innerSignals db text)]

theorem nested_inner (db : Database) (text : String) :
    Nested [.query text] (logFrom level [.query text] (innerSignals db text)) := by
  have hshown : [Span.query text].filter (fun s => s.level.shownAt level) = [.query text] := by
    simp [shownAt_query hlevel text]
  have hnested : Nested ([Span.query text].filter fun s => s.level.shownAt level)
      (logFrom level [.query text] (innerSignals db text)) :=
    nested_logFrom (balanced_innerSignals db text) [.query text]
  rwa [hshown] at hnested

theorem queryLog_of_error {e : Failure} (h : execute db text = .error e) :
    ∃ es : List Event, (∀ x ∈ es, x.ofPlanning = true) ∧
      queryLog db level text = .opened (.query text) ::
        (es.map (.event (some (.query text))) ++
          [.event (some (.query text)) (.rejected e), .closed (.query text)]) := by
  obtain ⟨es, hplanning, hes⟩ := signals_traceRun_of_error h
  have hending : logFrom level [.query text] [.event (.rejected e)] =
      [.event (some (.query text)) (.rejected e)] := by
    rcases hlevel with rfl | rfl <;> rfl
  refine ⟨es, hplanning, ?_⟩
  rw [queryLog_eq hlevel, innerSignals, hes, h, logFrom_append (balanced_events es),
    logFrom_planning hlevel hplanning, currentSpan_query hlevel, hending, List.append_assoc]
  rfl

theorem queryLog_of_ok {rows : List Row} (h : execute db text = .ok rows) (plan : Plan db text) :
    ∃ es : List Event, (∀ x ∈ es, x.ofPlanning = true) ∧
      queryLog db level text = .opened (.query text) ::
        (es.map (.event (some (.query text))) ++
          ((plan.reports.flatMap fun r => logFrom level [.query text] r.signals) ++
            [.recorded (.query text) rows.length,
              .event (some (.query text)) (.executed rows.length), .closed (.query text)])) := by
  obtain ⟨es, hplanning, hes⟩ := plan.signals_traceRun
  have hscans : Balanced (plan.reports.flatMap ScanReport.signals) :=
    .flatMap fun r _ => r.balanced_signals
  have hending : logFrom level [.query text]
      [.returned rows.length, .event (.executed rows.length)] =
        [.recorded (.query text) rows.length,
          .event (some (.query text)) (.executed rows.length)] := by
    rcases hlevel with rfl | rfl <;> rfl
  refine ⟨es, hplanning, ?_⟩
  rw [queryLog_eq hlevel, innerSignals, hes, h, List.append_assoc,
    logFrom_append (balanced_events es), logFrom_append hscans,
    logFrom_flatMap fun r _ => r.balanced_signals, logFrom_planning hlevel hplanning,
    currentSpan_query hlevel, hending, List.append_assoc, List.append_assoc]
  rfl

end Shown

end Runs

section Block

variable {db : Database} {level : Level} {text : String}

theorem filterMap_ending?_scan (hlevel : level = .trace ∨ level = .debug) (r : ScanReport) :
    (logFrom level [.query text] r.signals).filterMap ending? = [] := by
  rcases hlevel with rfl | rfl
  · rw [r.logFrom_signals_trace]
    simp [List.filterMap_cons, List.filterMap_append, List.filterMap_map, Function.comp_def,
      ending?, ScanReport.events]
  · rw [r.logFrom_signals_debug]
    rfl

section Scans

variable (spans : List Span) (r : ScanReport)

theorem filter_isBoundary_scan :
    (logFrom .trace spans r.signals).filter isBoundary =
      [.opened (.scan r.table), .closed (.scan r.table)] := by
  rw [r.logFrom_signals_trace, List.filter_cons_of_pos rfl, List.filter_append,
    filter_isBoundary_events]
  rfl

theorem filterMap_count?_scan :
    (logFrom .trace spans r.signals).filterMap count? = [(.scan r.table, r.kept)] := by
  rw [r.logFrom_signals_trace, List.filterMap_cons_none rfl, List.filterMap_append,
    filterMap_count?_events]
  rfl

theorem filterMap_passedOver?_scan :
    (logFrom .trace spans r.signals).filterMap passedOver? =
      r.passedOver.map (some (.scan r.table), ·) := by
  have hevents : (r.events.map (LogEntry.event (some (.scan r.table)))).filterMap passedOver? =
      r.passedOver.map (some (.scan r.table), ·) := by
    simp [ScanReport.events, List.filterMap_map, Function.comp_def, passedOver?]
  rw [r.logFrom_signals_trace, List.filterMap_cons_none rfl, List.filterMap_append, hevents]
  exact List.append_nil _

end Scans

theorem tellsScans_queryLog {rows : List Row} (h : execute db text = .ok rows)
    (plan : Plan db text) : TellsScans plan rows (queryLog db .trace text) := by
  obtain ⟨es, hplanning, hlog⟩ := queryLog_of_ok (.inl rfl) h plan
  rw [hlog]
  refine ⟨?_, ?_, failures plan.table plan.predicate, ?_, pairwise_failures _ _,
    fun _ _ => mem_failures_iff⟩
  · rw [List.filter_cons_of_pos rfl, List.filter_append, filter_isBoundary_events,
      List.filter_append, List.filter_flatMap]
    simp [filter_isBoundary_scan, Plan.reports, List.flatMap_map, isBoundary]
  · rw [filterMap_block rfl (fun _ _ => rfl) hplanning, List.filterMap_append,
      List.filterMap_flatMap]
    simp [filterMap_count?_scan, Plan.reports, List.filterMap_cons, count?, ← List.map_eq_flatMap,
      Function.comp_def]
  · rw [filterMap_block rfl passedOver?_planning hplanning, List.filterMap_append,
      List.filterMap_flatMap]
    simp [filterMap_passedOver?_scan, Plan.reports, List.flatMap_map, List.filterMap_cons,
      passedOver?]

theorem isBlock_queryLog (hlevel : level = .trace ∨ level = .debug) (db : Database)
    (text : String) : IsBlock db level text (queryLog db level text) := by
  refine ⟨⟨_, queryLog_eq hlevel db text, nested_inner hlevel db text⟩, fun e he => ?_,
    fun rows hrows => ?_, fun htrace rows hrows => ?_⟩
  · obtain ⟨es, hplanning, hlog⟩ := queryLog_of_error hlevel he
    rw [hlog]
    refine ⟨?_, ?_, ?_⟩
    · exact filterMap_block rfl ending?_planning hplanning _
    · exact filterMap_block rfl (fun _ _ => rfl) hplanning _
    · rw [List.filter_cons_of_pos rfl, List.filter_append, filter_isBoundary_events]
      rfl
  · obtain ⟨plan⟩ := Plan.exists_of_execute hrows
    obtain ⟨es, hplanning, hlog⟩ := queryLog_of_ok hlevel hrows plan
    rw [hlog]
    refine ⟨?_, ?_⟩
    · have hscans : (plan.reports.flatMap fun r =>
          logFrom level [.query text] r.signals).filterMap ending? = [] := by
        rw [List.filterMap_flatMap, List.flatMap_eq_nil_iff]
        exact fun r _ => filterMap_ending?_scan hlevel r
      rw [filterMap_block rfl ending?_planning hplanning, List.filterMap_append, hscans]
      rfl
    · rw [← List.cons_append, ← List.append_assoc, List.filterMap_append, List.getLast?_append]
      rfl
  · subst htrace
    obtain ⟨plan⟩ := Plan.exists_of_execute hrows
    exact ⟨plan, tellsScans_queryLog hrows plan⟩

end Block

/-- Queries that are put to a database one after the other are logged in blocks, one for each. -/
theorem logOfQueries_blocks (db : Database) (level : Level) (texts : List String)
    (hlevel : level = .trace ∨ level = .debug) :
    ∃ blocks : List (List LogEntry), logOfQueries db level texts = blocks.flatten ∧
      List.Forall₂ (IsBlock db level) texts blocks := by
  refine ⟨texts.map (queryLog db level), ?_, ?_⟩
  · rw [logOfQueries_eq, List.flatMap_def]
  · rw [List.forall₂_map_right_iff, List.forall₂_same]
    exact fun text _ => isBlock_queryLog hlevel db text

theorem logOfQueries_blocks_stock :
    ∃ first second, logOfQueries stock .trace
        ["SELECT b.y, a.x, b.y FROM a, b WHERE a.k <= 'q'", "SELECT c.x FROM c"] =
          first ++ second ∧
      first.filterMap ending? = [.executed 2] ∧
      first.filter isBoundary =
        [.opened (.query "SELECT b.y, a.x, b.y FROM a, b WHERE a.k <= 'q'"),
          .opened (.scan "a"), .closed (.scan "a"), .opened (.scan "b"), .closed (.scan "b"),
          .closed (.query "SELECT b.y, a.x, b.y FROM a, b WHERE a.k <= 'q'")] ∧
      second.filterMap ending? = [.rejected (.unknownReference (.noTable "c"))] ∧
      second.filterMap count? = [] := by
  obtain ⟨blocks, hlog, hblocks⟩ := logOfQueries_blocks stock .trace
    ["SELECT b.y, a.x, b.y FROM a, b WHERE a.k <= 'q'", "SELECT c.x FROM c"] (.inl rfl)
  obtain ⟨first, rest, hfirst, hrest, rfl⟩ := List.forall₂_cons_left_iff.1 hblocks
  obtain ⟨second, rest, hsecond, hnil, rfl⟩ := List.forall₂_cons_left_iff.1 hrest
  obtain rfl := List.forall₂_nil_left_iff.1 hnil
  obtain ⟨plan, hscans⟩ := hfirst.traced rfl _ execute_stock
  refine ⟨first, second, by simpa using hlog, (hfirst.succeeded _ execute_stock).1, ?_,
    (hsecond.failed _ execute_stock_noTable).1, (hsecond.failed _ execute_stock_noTable).2.1⟩
  obtain ⟨s, selection, p, table, t, others, hparse, htables, ht, hassociate, hbuild⟩ := plan
  have hs := hparse
  rw [parse_stock] at hs
  cases hs
  cases htables
  have hlater : (["b"].filter fun name =>
      ∃ w ∈ ["b.y", "a.x", "b.y"], Selection.RequestsFrom name w) = ["b"] := by decide +kernel
  rw [hscans.boundaries, Plan.later, hlater]
  rfl

end RowSelect.Query
