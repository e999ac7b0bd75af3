import Mathlib.Data.List.Nodup
import RowSelect.Proofs.Fields
import RowSelect.Proofs.Grammar
import RowSelect.Proofs.Satisfaction
import RowSelect.Proofs.Selection
import RowSelect.Query.Execution

/-!
The rows of a query said without a scan: the positions of the first table that satisfy the condition,
each with the requested cells of all tables at that position.
-/

set_option autoImplicit false

namespace RowSelect.Query

open Selection (columnOf? splitAtDot? Selects)

def requested? (db : Database) (index : Nat) (table identifier : String) : Option Json :=
  (columnOf? table identifier).bind fun column => cell? db table column index

def cells (db : Database) (columns : List String) (index : Nat) (table : String) : Row :=
  Fields.valued (requested? db index table) columns.eraseDups

def rowAt (db : Database) (s : Statement) (index : Nat) : Row :=
  s.tables.flatMap (cells db s.columns index)

/-- The rows at the positions of the first table that satisfy the condition. -/
def selectedRows (db : Database) (s : Statement) : List Row :=
  match s.tables.head?.bind db.table? with
  | some first => (List.range first.length).filterMap fun index =>
      if ∀ c ∈ s.condition, Satisfies db c index then some (rowAt db s index) else none
  | none => []

theorem columnOf?_eq_some_iff {table identifier column : String} :
    columnOf? table identifier = some column ↔
      splitAtDot? identifier = some (table, column) := by
  unfold columnOf?
  cases hs : splitAtDot? identifier with
  | none => simp
  | some split =>
    obtain ⟨t, c⟩ := split
    by_cases ht : t = table <;> simp [ht]

theorem columnOf?_eq_none_of_ne {table other identifier : String} (hne : table ≠ other)
    (h : (columnOf? table identifier).isSome) : columnOf? other identifier = none := by
  obtain ⟨column, hc⟩ := Option.isSome_iff_exists.1 h
  have hs := columnOf?_eq_some_iff.1 hc
  simp [columnOf?, hs, hne]

theorem isSome_columnOf?_of_mem_cells {db : Database} {columns : List String} {index : Nat}
    {table w : String} (h : w ∈ Fields.names (cells db columns index table)) :
    (columnOf? table w).isSome := by
  have hsome := ((Fields.mem_names_valued _).1 h).2
  unfold requested? at hsome
  cases hc : columnOf? table w with
  | none => simp [hc] at hsome
  | some column => rfl

theorem project_eq_valued (table : String) (record : Record) (columns : List String) :
    project table record (columns.filterMap (columnOf? table)) =
      Fields.valued (fun w => (columnOf? table w).bind (Fields.get? record)) columns.eraseDups := by
  rw [project, List.filterMap_filterMap, ← Fields.ofList_valued]
  congr 1
  refine List.filterMap_congr fun w _ => ?_
  cases hc : columnOf? table w with
  | none => simp [hc]
  | some column =>
    obtain ⟨rfl, -⟩ := Selection.splitAtDot?_eq_some_iff.1 (columnOf?_eq_some_iff.1 hc)
    simp [hc]

theorem project_eq_cells {db : Database} {table : String} {t : Table}
    (ht : db.table? table = some t) {index : Nat} {record : Record}
    (hr : t.records[index]? = some record) (columns : List String) :
    project table record (columns.filterMap (columnOf? table)) =
      cells db columns index table := by
  rw [project_eq_valued, cells]
  congr 1
  funext w
  simp [requested?, cell?, ht, hr]

theorem cells_eq_nil_of_length_le {db : Database} {table : String} {t : Table}
    (ht : db.table? table = some t) {index : Nat} (hi : t.length ≤ index) (columns : List String) :
    cells db columns index table = [] := by
  have hr : t.records[index]? = none := List.getElem?_eq_none hi
  have hnone : requested? db index table = fun _ => none := by
    funext w
    simp [requested?, cell?, ht, hr]
  simp [cells, Fields.valued, hnone]

theorem cells_eq_nil_of_no_request {db : Database} {table : String} {columns : List String}
    (h : columns.filterMap (columnOf? table) = []) (index : Nat) :
    cells db columns index table = [] := by
  refine List.filterMap_eq_nil_iff.2 fun w hw => ?_
  have hc := List.filterMap_eq_nil_iff.1 h w (List.mem_eraseDups.1 hw)
  simp [requested?, hc]

theorem filterMap_zipIdx {α β : Type} {f : α → Nat → Option β} {g : Nat → Option β} {xs : List α}
    (h : ∀ i x, xs[i]? = some x → f x i = g i) :
    xs.zipIdx.filterMap (fun (x, i) => f x i) = (List.range xs.length).filterMap g := by
  induction xs using List.reverseRecOn with
  | nil => rfl
  | append_singleton xs x ih =>
    have hlast := h xs.length x (by simp)
    have hinit := ih fun i y hy => h i y (by
      obtain ⟨hi, -⟩ := List.getElem?_eq_some_iff.1 hy
      rwa [List.getElem?_append_left hi])
    rw [List.zipIdx_append, List.length_append, List.length_singleton, List.range_succ,
      List.filterMap_append, List.filterMap_append, hinit]
    simp [List.filterMap_cons, hlast]

theorem scanIndexed_eq {db : Database} {tables columns : List String} {s : Selection}
    (hs : Selects db tables columns s) {table : String} (hmem : table ∈ tables) {t : Table}
    (ht : db.table? table = some t) (p : Predicate) :
    scanIndexed table t s p = (List.range t.length).filterMap fun index =>
      if keeps p index then some (index, cells db columns index table) else none := by
  rw [scanIndexed, hs.columns?_eq hmem, Option.getD_some]
  refine filterMap_zipIdx
    (f := fun record index =>
      if keeps p index then
        some (index, project table record (columns.filterMap (columnOf? table)))
      else none)
    fun index record hr => ?_
  rw [project_eq_cells ht hr]

theorem outcome_traceScan (table : String) (t : Table) (s : Selection) (p : Predicate) :
    (traceScan table t s p).outcome = .ok (scanIndexed table t s p) := rfl

theorem outcome_findTable {db : Database} {table : String} {t : Table}
    (ht : db.table? table = some t) : (findTable db table).outcome = .ok t := by
  simp [findTable, ht]

section Merge

variable {db : Database} {tables columns : List String} {s : Selection}

theorem merge_scan (hs : Selects db tables columns s) {table : String} (hmem : table ∈ tables)
    {t : Table} (ht : db.table? table = some t) {rows : List (Nat × Row)}
    (hfree : ∀ r ∈ rows, ∀ w ∈ Fields.names r.2, columnOf? table w = none) :
    merge rows ((scanIndexed table t s .always).map Prod.snd) =
      rows.map fun (i, row) => (i, row ++ cells db columns i table) := by
  have hscan : (scanIndexed table t s .always).map Prod.snd =
      (List.range t.length).map fun i => cells db columns i table := by
    rw [scanIndexed_eq hs hmem ht]
    simp [keeps, Predicate.evaluate]
  rw [merge, hscan]
  refine List.map_congr_left fun r hr => ?_
  obtain ⟨i, row⟩ := r
  by_cases hi : i < t.length
  · have hnew : ∀ w ∈ Fields.names (cells db columns i table), w ∉ Fields.names row := by
      intro w hw hold
      have hsome := isSome_columnOf?_of_mem_cells hw
      simp [hfree _ hr w hold] at hsome
    have hextend := Fields.extend_of_disjoint
      (Fields.nodup_names_valued _ (Fields.nodup_eraseDups columns)) hnew
    simp [hi, ← hextend, cells]
  · simp [hi, cells_eq_nil_of_length_le ht (Nat.not_lt.1 hi)]

/-- The further tables add their cells in order. No name is met twice on the way, because the tables
are distinct and an identifier names one of them. -/
theorem outcome_mergeTables (hs : Selects db tables columns s) {others : List String}
    (hsub : ∀ t ∈ others, t ∈ tables) (hnodup : others.Nodup) {rows : List (Nat × Row)}
    (hfree : ∀ r ∈ rows, ∀ w ∈ Fields.names r.2, ∀ t ∈ others, columnOf? t w = none) :
    (mergeTables db s rows others).outcome =
      .ok (rows.map fun (i, row) => (i, row ++ others.flatMap (cells db columns i))) := by
  induction others generalizing rows with
  | nil => simp [mergeTables]
  | cons table rest ih =>
    obtain ⟨hnot, hrest⟩ := List.nodup_cons.1 hnodup
    have hmem := hsub table (List.mem_cons_self ..)
    have hsubrest : ∀ t ∈ rest, t ∈ tables := fun t ht => hsub t (List.mem_cons_of_mem _ ht)
    obtain ⟨t, ht⟩ := Option.isSome_iff_exists.1 (hs.exist table hmem)
    unfold mergeTables
    rw [hs.columns?_eq hmem, Option.getD_some]
    by_cases hnone : columns.filterMap (columnOf? table) = []
    · rw [hnone, List.isEmpty_nil, if_pos rfl]
      rw [ih hsubrest hrest fun r hr w hw u hu => hfree r hr w hw u (List.mem_cons_of_mem _ hu)]
      simp [cells_eq_nil_of_no_request hnone]
    · rw [if_neg (by simpa using hnone)]
      simp only [Traced.outcome_bind, outcome_findTable ht, outcome_traceScan, ok_bind]
      rw [merge_scan hs hmem ht fun r hr w hw => hfree r hr w hw table (List.mem_cons_self ..)]
      rw [ih hsubrest hrest]
      · simp [Function.comp_def]
      · intro r hr w hw u hu
        obtain ⟨⟨i, row⟩, hrow, rfl⟩ := List.mem_map.1 hr
        rw [Fields.names_append] at hw
        rcases List.mem_append.1 hw with hw | hw
        · exact hfree _ hrow w hw u (List.mem_cons_of_mem _ hu)
        · have hne : table ≠ u := ne_of_mem_of_not_mem hu hnot |>.symm
          exact columnOf?_eq_none_of_ne hne (isSome_columnOf?_of_mem_cells hw)

end Merge

theorem execute_eq_outcome (db : Database) (text : String) :
    execute db text = (traceRun db text).outcome := rfl

theorem parse_eq_readStatement {text : String} {folded : List Char}
    (h : foldCase (Text.trim text.toList) = .ok folded) : parse text = readStatement folded := by
  rw [parse, read, h]

theorem outcome_traceParse (text : String) :
    (traceParse text).outcome = (parse text).mapError .invalidSyntax := by
  unfold traceParse
  cases (parse text).mapError Failure.invalidSyntax <;> simp

theorem outcome_traceAssociate (db : Database) (s : Statement) :
    (traceAssociate db s).outcome = associate db s.tables s.columns := by
  unfold traceAssociate
  cases associate db s.tables s.columns <;> simp

theorem outcome_scans {db : Database} {s : Statement} {selection : Selection} {p : Predicate}
    (hs : Selects db s.tables s.columns selection)
    (hp : Predicate.build db s.condition = .ok p) {first : String} {others : List String}
    (htables : s.tables = first :: others) :
    (do
      let rows ← traceScan first (← findTable db first) selection p
      let rows ← mergeTables db selection rows others
      return rows.map Prod.snd).outcome = .ok (selectedRows db s) := by
  have hnodup := hs.distinct
  rw [htables] at hnodup
  obtain ⟨hnot, hothers⟩ := List.nodup_cons.1 hnodup
  have hmem : first ∈ s.tables := by simp [htables]
  obtain ⟨t, ht⟩ := Option.isSome_iff_exists.1 (hs.exist first hmem)
  simp only [Traced.outcome_bind, outcome_findTable ht, outcome_traceScan, ok_bind]
  have hsub : ∀ u ∈ others, u ∈ s.tables := by
    intro u hu
    rw [htables]
    exact List.mem_cons_of_mem _ hu
  rw [outcome_mergeTables hs hsub hothers]
  · rw [scanIndexed_eq hs hmem ht, selectedRows, htables, List.head?_cons, Option.bind_some, ht]
    simp only [ok_bind, Traced.outcome_pure, List.map_filterMap]
    congr 1
    refine List.filterMap_congr fun i _ => ?_
    have hkeeps := keeps_iff_satisfies hp i
    by_cases hi : keeps p i = true
    · rw [if_pos hi, if_pos (hkeeps.1 hi)]
      simp [rowAt, htables]
    · rw [if_neg hi, if_neg (mt hkeeps.2 hi)]
      rfl
  · intro r hr w hw u hu
    rw [scanIndexed_eq hs hmem ht] at hr
    obtain ⟨i, -, hi⟩ := List.mem_filterMap.1 hr
    by_cases hk : keeps p i = true
    · have hne : first ≠ u := ne_of_mem_of_not_mem hu hnot |>.symm
      obtain rfl : r = (i, cells db s.columns i first) := by simpa [hk] using hi.symm
      exact columnOf?_eq_none_of_ne hne (isSome_columnOf?_of_mem_cells hw)
    · simp [hk] at hi

theorem execute_eq_bind (db : Database) (text : String) :
    execute db text = (do
      let s ← (parse text).mapError .invalidSyntax
      let _ ← associate db s.tables s.columns
      let _ ← Predicate.build db s.condition
      if s.tables = [] then .error (.invalidSyntax .noTables) else .ok (selectedRows db s)) := by
  rw [execute_eq_outcome, traceRun, Traced.outcome_bind, outcome_traceParse]
  cases (parse text).mapError Failure.invalidSyntax with
  | error e => rfl
  | ok s =>
    rw [ok_bind, ok_bind, Traced.outcome_bind, outcome_traceAssociate]
    cases hs : associate db s.tables s.columns with
    | error e => rfl
    | ok selection =>
      rw [ok_bind, ok_bind, Traced.outcome_bind, Traced.outcome_ofExcept]
      have hselects := Selection.associate_eq_ok_iff.1 hs
      cases hp : Predicate.build db s.condition with
      | error e => rfl
      | ok p =>
        rw [ok_bind, ok_bind, Traced.outcome_bind, Traced.outcome_emit, ok_bind]
        cases htables : s.tables with
        | nil =>
          simp only [hselects.tables_eq, htables]
          rfl
        | cons first others =>
          rw [if_neg (List.cons_ne_nil first others), ← outcome_scans hselects hp htables]
          simp only [hselects.tables_eq, htables]

theorem mem_rowAt_iff {db : Database} {s : Statement}
    (hlisted : ∀ w ∈ s.columns, Selection.Offered db s.tables w) {index : Nat} {w : String}
    {v : Json} :
    (w, v) ∈ rowAt db s index ↔
      w ∈ s.columns ∧ ∃ table column, splitAtDot? w = some (table, column) ∧
        cell? db table column index = some v := by
  simp only [rowAt, cells, List.mem_flatMap, Fields.mem_valued, List.mem_eraseDups, requested?,
    Option.bind_eq_some_iff, columnOf?_eq_some_iff]
  constructor
  · intro h
    obtain ⟨table, -, hw, column, hsplit, hcell⟩ := h
    exact ⟨hw, table, column, hsplit, hcell⟩
  · intro h
    obtain ⟨hw, table, column, hsplit, hcell⟩ := h
    obtain ⟨t, c, _, hsplit', hmem, -⟩ := hlisted w hw
    rw [hsplit] at hsplit'
    cases hsplit'
    exact ⟨table, hmem, hw, column, hsplit, hcell⟩

theorem nodup_names_rowAt {db : Database} {s : Statement} (hdistinct : s.tables.Nodup)
    (index : Nat) : (Fields.names (rowAt db s index)).Nodup := by
  have hnames : Fields.names (rowAt db s index) =
      s.tables.flatMap fun table => Fields.names (cells db s.columns index table) := by
    rw [rowAt, Fields.names, List.map_flatMap]
    rfl
  rw [hnames, List.nodup_flatMap]
  refine ⟨fun table _ => Fields.nodup_names_valued _ (Fields.nodup_eraseDups _), ?_⟩
  refine hdistinct.imp fun {t u} hne w hw hw' => ?_
  have hnone := columnOf?_eq_none_of_ne hne (isSome_columnOf?_of_mem_cells hw)
  have hsome := isSome_columnOf?_of_mem_cells hw'
  simp [hnone] at hsome

/-- What a query returns: one row for each position of the first table that satisfies the condition,
with exactly the requested cells at that position, each identifier once. -/
theorem execute_rows {db : Database} {text : String} {rows : List Row}
    (h : execute db text = .ok rows) :
    ∃ s first t, parse text = .ok s ∧ s.tables.head? = some first ∧ db.table? first = some t ∧
      rows = (List.range t.length).filterMap (fun index =>
        if ∀ c ∈ s.condition, Satisfies db c index then some (rowAt db s index) else none) ∧
      ∀ index, (Fields.names (rowAt db s index)).Nodup ∧
        ∀ w v, (w, v) ∈ rowAt db s index ↔
          w ∈ s.columns ∧ ∃ table column, splitAtDot? w = some (table, column) ∧
            cell? db table column index = some v := by
  rw [execute_eq_bind] at h
  obtain ⟨s, hparse, h⟩ := bind_eq_ok.1 h
  obtain ⟨selection, hassociate, h⟩ := bind_eq_ok.1 h
  obtain ⟨p, -, h⟩ := bind_eq_ok.1 h
  have hselects := Selection.associate_eq_ok_iff.1 hassociate
  have hs := (mapError_eq_ok_iff _).1 hparse
  cases htables : s.tables with
  | nil => simp [htables] at h
  | cons first others =>
    have hmem : first ∈ s.tables := by simp [htables]
    obtain ⟨t, ht⟩ := Option.isSome_iff_exists.1 (hselects.exist first hmem)
    have hrows : selectedRows db s = rows := by simpa [htables] using h
    refine ⟨s, first, t, hs, by simp [htables], ht, ?_, fun index => ⟨?_, fun w v => ?_⟩⟩
    · rw [← hrows, selectedRows, htables, List.head?_cons, Option.bind_some, ht]
    · exact nodup_names_rowAt hselects.distinct index
    · exact mem_rowAt_iff hselects.offered

def stock : Database :=
  ⟨[("a", ⟨[[("x", .null), ("k", .string "p")], [("k", .string "r")],
      [("k", .string "q"), ("x", .bool true)]]⟩),
    ("b", ⟨[[("y", .string "s")]]⟩)], by decide⟩

theorem foldCase_stock :
    foldCase (Text.trim "SELECT b.y, a.x, b.y FROM a, b WHERE a.k <= 'q'".toList) =
      .ok "select b.y, a.x, b.y from a, b where a.k <= 'q'".toList :=
  eq_ok_of_toOption (by decide +kernel)

theorem parse_stock : parse "SELECT b.y, a.x, b.y FROM a, b WHERE a.k <= 'q'" =
    .ok ⟨["b.y", "a.x", "b.y"], ["a", "b"], some ⟨⟨"a", "k"⟩, .le, .literal (.string "q")⟩⟩ := by
  apply eq_ok_of_toOption
  rw [parse_eq_readStatement foldCase_stock, readStatement, readTokens_eq_tokensWithin]
  decide +kernel

theorem execute_stock : execute stock "SELECT b.y, a.x, b.y FROM a, b WHERE a.k <= 'q'" =
    .ok [[("a.x", .null), ("b.y", .string "s")], [("a.x", .bool true)]] := by
  apply eq_ok_of_toOption
  rw [execute_eq_bind, parse_stock]
  decide +kernel

theorem execute_rows_stock :
    execute stock "SELECT b.y, a.x, b.y FROM a, b WHERE a.k <= 'q'" =
      .ok [[("a.x", .null), ("b.y", .string "s")], [("a.x", .bool true)]] ∧
    ∃ s first t, parse "SELECT b.y, a.x, b.y FROM a, b WHERE a.k <= 'q'" = .ok s ∧
      s.tables.head? = some first ∧ stock.table? first = some t ∧
      ∀ index, (Fields.names (rowAt stock s index)).Nodup := by
  refine ⟨execute_stock, ?_⟩
  obtain ⟨s, first, t, hparse, hfirst, ht, -, hcells⟩ := execute_rows execute_stock
  exact ⟨s, first, t, hparse, hfirst, ht, fun index => (hcells index).1⟩

end RowSelect.Query
