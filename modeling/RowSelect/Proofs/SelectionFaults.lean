import Mathlib.Algebra.BigOperators.Group.List.Basic
import Mathlib.Algebra.GroupWithZero.Nat
import RowSelect.Proofs.Fields
import RowSelect.Proofs.SelectedRows
import RowSelect.Proofs.Selection

/-!
When columns cannot be selected from tables. The listed tables are looked at before the requested
columns, and the first of them that is out of order gives the failure; without one, every request is
found under its table.
-/

set_option autoImplicit false

namespace RowSelect.Query.Selection

structure Names (identifier table column : String) : Prop where
  eq : identifier = table ++ "." ++ column
  table_dot : '.' ∉ table.toList

def RequestsFrom (table identifier : String) : Prop := ∃ column, Names identifier table column

inductive InOrder (db : Database) (tables : List String) (identifier : String) : Prop where
  | mk {table column : String} {first : Record} {rest : List Record}
      (hnames : Names identifier table column) (hlisted : table ∈ tables)
      (htable : db.table? table = some ⟨first :: rest⟩) (hcolumn : column ∈ Fields.names first)

inductive TableFault (db : Database) (before : List String) (table : String) : Failure → Prop where
  | repeated (hold : table ∈ before) :
      TableFault db before table (.invalidSyntax (.repeatedTable table))
  | missing (hnew : table ∉ before) (htable : db.table? table = none) :
      TableFault db before table (.unknownReference (.noTable table))

inductive ColumnFault (db : Database) (tables : List String) (identifier : String) :
    Failure → Prop where
  | unqualified (hdot : '.' ∉ identifier.toList) :
      ColumnFault db tables identifier (.unknownReference (.unqualified identifier))
  | notListed {table column : String} (hnames : Names identifier table column)
      (hlisted : table ∉ tables) :
      ColumnFault db tables identifier (.unknownReference (.notListed table identifier))
  | emptyTable {table column : String} (hnames : Names identifier table column)
      (hlisted : table ∈ tables) (htable : db.table? table = some ⟨[]⟩) :
      ColumnFault db tables identifier (.emptyTable table)
  | noColumn {table column : String} {first : Record} {rest : List Record}
      (hnames : Names identifier table column) (hlisted : table ∈ tables)
      (htable : db.table? table = some ⟨first :: rest⟩) (hcolumn : column ∉ Fields.names first) :
      ColumnFault db tables identifier (.unknownReference (.noColumn identifier))

theorem splitAtDot?_eq_some_iff_names {identifier table column : String} :
    splitAtDot? identifier = some (table, column) ↔ Names identifier table column := by
  rw [splitAtDot?_eq_some_iff]
  exact ⟨fun h => ⟨h.1, h.2⟩, fun h => ⟨h.eq, h.table_dot⟩⟩

theorem splitAtDot?_eq_none_iff {identifier : String} :
    splitAtDot? identifier = none ↔ '.' ∉ identifier.toList := by
  rw [← dropWhile_bne_eq_nil_iff, splitAtDot?]
  cases identifier.toList.dropWhile (· != '.') <;> simp

theorem Names.unique {identifier table column table' column' : String}
    (h : Names identifier table column) (h' : Names identifier table' column') :
    table = table' ∧ column = column' := by
  have hsplit := splitAtDot?_eq_some_iff_names.2 h
  rw [splitAtDot?_eq_some_iff_names.2 h'] at hsplit
  cases hsplit
  exact ⟨rfl, rfl⟩

theorem requestsFrom_iff {table identifier : String} :
    RequestsFrom table identifier ↔ (columnOf? table identifier).isSome = true := by
  simp only [RequestsFrom, Option.isSome_iff_exists, columnOf?_eq_some_iff,
    splitAtDot?_eq_some_iff_names]

instance (table identifier : String) : Decidable (RequestsFrom table identifier) :=
  decidable_of_iff _ requestsFrom_iff.symm

theorem inOrder_iff_offered {db : Database} {tables : List String} {identifier : String} :
    InOrder db tables identifier ↔ Offered db tables identifier := by
  constructor
  · intro h
    obtain ⟨hnames, hlisted, htable, hcolumn⟩ := h
    refine ⟨_, _, _, splitAtDot?_eq_some_iff_names.2 hnames, hlisted, htable, ?_⟩
    simpa [Table.hasColumn?] using Fields.isSome_get?_iff.2 hcolumn
  · intro h
    obtain ⟨table, column, ⟨records⟩, hsplit, hlisted, htable, hhas⟩ := h
    cases records with
    | nil => simp [Table.hasColumn?] at hhas
    | cons first rest =>
      have hcolumn : column ∈ Fields.names first := by
        simpa [Table.hasColumn?, Fields.isSome_get?_iff] using hhas
      exact .mk (splitAtDot?_eq_some_iff_names.1 hsplit) hlisted htable hcolumn

theorem addTable_eq_error_iff {db : Database} {s : Selection} {table : String} {e : Failure} :
    addTable db s table = .error e ↔ TableFault db s.tables table e := by
  unfold addTable
  constructor
  · intro h
    split at h
    · next hold =>
      cases h
      exact .repeated hold
    · next hnew =>
      split at h
      · next htable =>
        cases h
        exact .missing hnew (Option.isNone_iff_eq_none.1 htable)
      · cases h
  · intro h
    cases h with
    | repeated hold => rw [if_pos hold]
    | missing hnew htable => rw [if_neg hnew, htable, Option.isNone_none, if_pos rfl]

/-- The listed tables are there by the time columns are added, so a missing table is no fault of a
column. -/
theorem addColumn_eq_error_iff {db : Database} {s : Selection} {identifier : String} {e : Failure}
    (hexist : ∀ table ∈ s.tables, (db.table? table).isSome) :
    addColumn db s identifier = .error e ↔ ColumnFault db s.tables identifier e := by
  unfold addColumn
  constructor
  · intro h
    cases hsplit : splitAtDot? identifier with
    | none =>
      rw [hsplit] at h
      cases h
      exact .unqualified (splitAtDot?_eq_none_iff.1 hsplit)
    | some split =>
      obtain ⟨table, column⟩ := split
      have hnames := splitAtDot?_eq_some_iff_names.1 hsplit
      simp only [hsplit] at h
      by_cases hlisted : table ∈ s.tables
      · obtain ⟨⟨records⟩, htable⟩ := Option.isSome_iff_exists.1 (hexist table hlisted)
        rw [if_neg (not_not.2 hlisted), htable] at h
        cases records with
        | nil =>
          cases h
          exact .emptyTable hnames hlisted htable
        | cons first rest =>
          by_cases hcolumn : column ∈ Fields.names first
          · simp [Table.hasColumn?, Fields.isSome_get?_iff.2 hcolumn] at h
          · have hnone := mt Fields.isSome_get?_iff.1 hcolumn
            simp only [Table.hasColumn?, List.head?_cons, Option.map_some, hnone] at h
            cases h
            exact .noColumn hnames hlisted htable hcolumn
      · rw [if_pos hlisted] at h
        cases h
        exact .notListed hnames hlisted
  · intro h
    cases h with
    | unqualified hdot => rw [splitAtDot?_eq_none_iff.2 hdot]
    | notListed hnames hlisted =>
      simp only [splitAtDot?_eq_some_iff_names.2 hnames, if_pos hlisted]
    | emptyTable hnames hlisted htable =>
      simp only [splitAtDot?_eq_some_iff_names.2 hnames, if_neg (not_not.2 hlisted), htable]
      rfl
    | noColumn hnames hlisted htable hcolumn =>
      have hnone := mt Fields.isSome_get?_iff.1 hcolumn
      simp [splitAtDot?_eq_some_iff_names.2 hnames, hlisted, htable, Table.hasColumn?, hnone]

theorem addTables_empty_eq_ok_iff {db : Database} {tables : List String} {s : Selection} :
    tables.foldlM (addTable db) .empty = .ok s ↔
      tables.Nodup ∧ (∀ t ∈ tables, (db.table? t).isSome) ∧ s.entries = tables.map (·, []) := by
  simp [addTables_eq_ok_iff, empty, Selection.tables, Fields.names]

theorem tables_of_entries {tables : List String} {s : Selection}
    (h : s.entries = tables.map (·, [])) : s.tables = tables := by
  simp [Selection.tables, Fields.names, h, Function.comp_def]

theorem tables_of_addColumns {db : Database} {columns : List String} {s r : Selection}
    (h : columns.foldlM (addColumn db) s = .ok r) : r.tables = s.tables := by
  obtain ⟨-, hentries⟩ := addColumns_eq_ok_iff.1 h
  simp [Selection.tables, Fields.names, hentries, Function.comp_def]

theorem addTables_eq_error_iff {db : Database} {tables : List String} {e : Failure} :
    tables.foldlM (addTable db) .empty = .error e ↔
      ∃ before table after, tables = before ++ table :: after ∧
        before.Nodup ∧ (∀ t ∈ before, (db.table? t).isSome) ∧ TableFault db before table e := by
  simp only [foldlM_eq_error_iff, addTables_empty_eq_ok_iff, addTable_eq_error_iff]
  constructor
  · intro h
    obtain ⟨before, table, after, s, htables, ⟨hnodup, hexist, hentries⟩, hfault⟩ := h
    rw [tables_of_entries hentries] at hfault
    exact ⟨before, table, after, htables, hnodup, hexist, hfault⟩
  · intro h
    obtain ⟨before, table, after, htables, hnodup, hexist, hfault⟩ := h
    refine ⟨before, table, after, ⟨before.map (·, [])⟩, htables, ⟨hnodup, hexist, rfl⟩, ?_⟩
    rwa [tables_of_entries rfl]

theorem addColumns_eq_error_iff {db : Database} {columns : List String} {s : Selection}
    {e : Failure} (hexist : ∀ table ∈ s.tables, (db.table? table).isSome) :
    columns.foldlM (addColumn db) s = .error e ↔
      ∃ before identifier after, columns = before ++ identifier :: after ∧
        (∀ w ∈ before, InOrder db s.tables w) ∧ ColumnFault db s.tables identifier e := by
  rw [foldlM_eq_error_iff]
  constructor
  · intro h
    obtain ⟨before, identifier, after, r, hcolumns, hbefore, hfault⟩ := h
    have htables := tables_of_addColumns hbefore
    rw [addColumn_eq_error_iff (by rwa [htables]), htables] at hfault
    refine ⟨before, identifier, after, hcolumns, fun w hw => ?_, hfault⟩
    exact inOrder_iff_offered.2 ((addColumns_eq_ok_iff.1 hbefore).1 w hw)
  · intro h
    obtain ⟨before, identifier, after, hcolumns, hbefore, hfault⟩ := h
    obtain ⟨r, hr⟩ : ∃ r, before.foldlM (addColumn db) s = .ok r :=
      ⟨⟨_⟩, addColumns_eq_ok_iff.2 ⟨fun w hw => inOrder_iff_offered.1 (hbefore w hw), rfl⟩⟩
    have htables := tables_of_addColumns hr
    refine ⟨before, identifier, after, r, hcolumns, hr, ?_⟩
    rwa [addColumn_eq_error_iff (by rwa [htables]), htables]

theorem associate_eq_error_iff {db : Database} {tables columns : List String} {e : Failure} :
    associate db tables columns = .error e ↔
      (∃ before table after, tables = before ++ table :: after ∧
        before.Nodup ∧ (∀ t ∈ before, (db.table? t).isSome) ∧ TableFault db before table e) ∨
      (tables.Nodup ∧ (∀ t ∈ tables, (db.table? t).isSome) ∧
        ∃ before identifier after, columns = before ++ identifier :: after ∧
          (∀ w ∈ before, InOrder db tables w) ∧ ColumnFault db tables identifier e) := by
  rw [associate, bind_eq_error, addTables_eq_error_iff]
  refine or_congr_right ?_
  constructor
  · intro h
    obtain ⟨s, hs, hcolumns⟩ := h
    obtain ⟨hnodup, hexist, hentries⟩ := addTables_empty_eq_ok_iff.1 hs
    have htables := tables_of_entries hentries
    rw [addColumns_eq_error_iff (by rwa [htables]), htables] at hcolumns
    exact ⟨hnodup, hexist, hcolumns⟩
  · intro h
    obtain ⟨hnodup, hexist, hcolumns⟩ := h
    refine ⟨⟨tables.map (·, [])⟩, addTables_empty_eq_ok_iff.2 ⟨hnodup, hexist, rfl⟩, ?_⟩
    rwa [addColumns_eq_error_iff (by rwa [tables_of_entries rfl]), tables_of_entries rfl]

theorem requests_eq {table : String} (columns : List String) :
    (columns.filterMap (columnOf? table)).map (table ++ "." ++ ·) =
      columns.filter (RequestsFrom table ·) := by
  induction columns with
  | nil => rfl
  | cons w rest ih =>
    cases hw : columnOf? table w with
    | none =>
      have hnot : ¬RequestsFrom table w := by simp [requestsFrom_iff, hw]
      simp [hw, hnot, ih]
    | some column =>
      have hnames := splitAtDot?_eq_some_iff_names.1 (columnOf?_eq_some_iff.1 hw)
      have hfrom : RequestsFrom table w := ⟨column, hnames⟩
      rw [List.filterMap_cons_some hw, List.filter_cons_of_pos (by simpa using hfrom),
        List.map_cons, ih, ← hnames.eq]

theorem countP_requestsFrom {db : Database} {tables : List String} {identifier : String}
    (hdistinct : tables.Nodup) (h : InOrder db tables identifier) :
    tables.countP (RequestsFrom · identifier) = 1 := by
  cases h with
  | @mk table column _ _ hnames hlisted _ _ =>
    have hone : ∀ t ∈ tables, decide (RequestsFrom t identifier) = true ↔ (t == table) = true := by
      intro t _
      simp only [decide_eq_true_eq, beq_iff_eq]
      constructor
      · intro hfrom
        obtain ⟨column', hnames'⟩ := hfrom
        exact (hnames'.unique hnames).1
      · intro ht
        exact ⟨column, ht ▸ hnames⟩
    rw [List.countP_congr hone, ← List.count]
    exact List.count_eq_one_of_mem hdistinct hlisted

theorem sum_map_ite {α : Type} (p : α → Prop) [DecidablePred p] (xs : List α) :
    (xs.map fun x => if p x then 1 else 0).sum = xs.countP (p ·) := by
  induction xs with
  | nil => rfl
  | cons x xs ih => simp [List.countP_cons, ih, Nat.add_comm]

theorem sum_length_requests {db : Database} {tables columns : List String}
    (hdistinct : tables.Nodup) (h : ∀ w ∈ columns, InOrder db tables w) :
    (tables.map fun table => (columns.filterMap (columnOf? table)).length).sum =
      columns.length := by
  induction columns with
  | nil => simp
  | cons w rest ih =>
    have hstep : ∀ table, ((w :: rest).filterMap (columnOf? table)).length =
        (rest.filterMap (columnOf? table)).length +
          if RequestsFrom table w then 1 else 0 := by
      intro table
      cases hw : columnOf? table w with
      | none => simp [hw, requestsFrom_iff]
      | some column => simp [hw, requestsFrom_iff]
    have hone := countP_requestsFrom hdistinct (h w (List.mem_cons_self ..))
    have hlater := ih fun w hw => h w (List.mem_cons_of_mem _ hw)
    simp only [hstep, List.sum_map_add]
    rw [hlater, sum_map_ite (RequestsFrom · w), hone, List.length_cons]

/-- Selecting columns from tables succeeds exactly if the tables are distinct and there, and each
request is in order; then every table has its requests in their order, and none is dropped. It fails
with what is wrong first: with the tables from left to right, and then with the columns. -/
theorem associate_groups (db : Database) (tables columns : List String) :
    ((∃ s, associate db tables columns = .ok s) ↔
      tables.Nodup ∧ (∀ t ∈ tables, (db.table? t).isSome) ∧
        ∀ w ∈ columns, InOrder db tables w) ∧
    (∀ s, associate db tables columns = .ok s →
      s.tables = tables ∧
      (∀ t ∈ tables, ∃ cs, s.columns? t = some cs ∧
        cs.map (t ++ "." ++ ·) = columns.filter (RequestsFrom t ·)) ∧
      (s.entries.map fun entry => entry.2.length).sum = columns.length) ∧
    ∀ e, associate db tables columns = .error e ↔
      (∃ before table after, tables = before ++ table :: after ∧
        before.Nodup ∧ (∀ t ∈ before, (db.table? t).isSome) ∧ TableFault db before table e) ∨
      (tables.Nodup ∧ (∀ t ∈ tables, (db.table? t).isSome) ∧
        ∃ before identifier after, columns = before ++ identifier :: after ∧
          (∀ w ∈ before, InOrder db tables w) ∧ ColumnFault db tables identifier e) := by
  refine ⟨⟨fun h => ?_, fun h => ?_⟩, fun s hs => ?_, fun e => associate_eq_error_iff⟩
  · obtain ⟨s, hs⟩ := h
    have hselects := associate_eq_ok_iff.1 hs
    exact ⟨hselects.distinct, hselects.exist, fun w hw =>
      inOrder_iff_offered.2 (hselects.offered w hw)⟩
  · obtain ⟨hdistinct, hexist, horder⟩ := h
    exact ⟨⟨_⟩, associate_eq_ok_iff.2
      ⟨hdistinct, hexist, fun w hw => inOrder_iff_offered.1 (horder w hw), rfl⟩⟩
  · have hselects := associate_eq_ok_iff.1 hs
    refine ⟨hselects.tables_eq, fun t ht => ⟨_, hselects.columns?_eq ht, requests_eq columns⟩, ?_⟩
    rw [hselects.entries, List.map_map]
    exact sum_length_requests hselects.distinct fun w hw =>
      inOrder_iff_offered.2 (hselects.offered w hw)

def shelf : Database :=
  ⟨[("a", ⟨[[("x", .null), ("y.z", .null)]]⟩), ("b", ⟨[]⟩)], by decide⟩

theorem associate_groups_shelf :
    (∃ s, associate shelf ["b", "a"] ["a.y.z", "a.x", "a.y.z"] = .ok s ∧ s.tables = ["b", "a"] ∧
      (∃ cs, s.columns? "a" = some cs ∧ cs.map ("a" ++ "." ++ ·) = ["a.y.z", "a.x", "a.y.z"]) ∧
      (s.entries.map fun entry => entry.2.length).sum = 3) ∧
    associate shelf ["a", "b"] ["a.x", "b.x", "c"] = .error (.emptyTable "b") := by
  have horder : ∀ column ∈ ["x", "y.z"], ∀ tables, "a" ∈ tables →
      InOrder shelf tables ("a" ++ "." ++ column) := by
    intro column hcolumn tables hlisted
    exact .mk ⟨rfl, by decide⟩ hlisted rfl hcolumn
  have hx : ∀ tables, "a" ∈ tables → InOrder shelf tables "a.x" := horder "x" (by simp)
  have hyz : ∀ tables, "a" ∈ tables → InOrder shelf tables "a.y.z" := horder "y.z" (by simp)
  obtain ⟨hok, hgroups, -⟩ := associate_groups shelf ["b", "a"] ["a.y.z", "a.x", "a.y.z"]
  obtain ⟨-, -, herror⟩ := associate_groups shelf ["a", "b"] ["a.x", "b.x", "c"]
  refine ⟨?_, ?_⟩
  · have hall : ∀ w ∈ ["a.y.z", "a.x", "a.y.z"], InOrder shelf ["b", "a"] w := by
      simp only [List.forall_mem_cons]
      exact ⟨hyz _ (by simp), hx _ (by simp), hyz _ (by simp), by simp⟩
    obtain ⟨s, hs⟩ := hok.2 ⟨by decide, by decide +kernel, hall⟩
    obtain ⟨htables, hcolumns, hsum⟩ := hgroups s hs
    obtain ⟨cs, hcs, hrequests⟩ := hcolumns "a" (by simp)
    exact ⟨s, hs, htables, ⟨cs, hcs, hrequests.trans (by decide +kernel)⟩, hsum⟩
  · refine (herror _).2 (.inr ⟨by decide, by decide +kernel, ["a.x"], "b.x", ["c"], rfl, ?_, ?_⟩)
    · simpa using hx ["a", "b"] (by simp)
    · have hnames : Names "b.x" "b" "x" := ⟨rfl, by decide⟩
      exact .emptyTable hnames (by simp) rfl

end RowSelect.Query.Selection
