import RowSelect.Proofs.Cutting
import RowSelect.Proofs.Outcome
import RowSelect.Query.Selection

/-!
What a selection holds: the listed tables in order, each with the columns requested from it in the
order of the requests.
-/

set_option autoImplicit false

namespace RowSelect.Query.Selection

def columnOf? (table identifier : String) : Option String :=
  match splitAtDot? identifier with
  | some (t, column) => if t = table then some column else none
  | none => none

/-- The identifier names a column of a listed table, which has it. -/
def Offered (db : Database) (tables : List String) (identifier : String) : Prop :=
  ∃ table column t, splitAtDot? identifier = some (table, column) ∧ table ∈ tables ∧
    db.table? table = some t ∧ t.hasColumn? column = some true

structure Selects (db : Database) (tables columns : List String) (s : Selection) : Prop where
  distinct : tables.Nodup
  exist : ∀ table ∈ tables, (db.table? table).isSome
  offered : ∀ identifier ∈ columns, Offered db tables identifier
  entries : s.entries = tables.map fun table => (table, columns.filterMap (columnOf? table))

theorem splitAtDot?_eq_some_iff {identifier table column : String} :
    splitAtDot? identifier = some (table, column) ↔
      identifier = table ++ "." ++ column ∧ '.' ∉ table.toList := by
  constructor
  · intro h
    unfold splitAtDot? at h
    cases hd : identifier.toList.dropWhile (· != '.') with
    | nil => simp [hd] at h
    | cons dot rest =>
      obtain ⟨hcut, hnot⟩ := cut_of_dropWhile_bne hd
      simp only [hd, Option.some.injEq, Prod.mk.injEq] at h
      obtain ⟨rfl, rfl⟩ := h
      exact ⟨String.toList_inj.1 (by simpa using hcut), by simpa using hnot⟩
  · intro h
    obtain ⟨rfl, hnot⟩ := h
    have hlist : (table ++ "." ++ column).toList = table.toList ++ '.' :: column.toList := by simp
    simp only [splitAtDot?, hlist, takeWhile_bne_append hnot, dropWhile_bne_append hnot,
      String.ofList_toList]

theorem addTable_eq_ok_iff {db : Database} {s r : Selection} {table : String} :
    addTable db s table = .ok r ↔
      table ∉ s.tables ∧ (db.table? table).isSome ∧ r = ⟨s.entries ++ [(table, [])]⟩ := by
  unfold addTable
  by_cases hmem : table ∈ s.tables
  · simp [hmem]
  · cases hdb : db.table? table with
    | none => simp [hmem]
    | some t => simp [hmem, eq_comm]

theorem addColumn_eq_ok_iff {db : Database} {s r : Selection} {identifier : String} :
    addColumn db s identifier = .ok r ↔
      Offered db s.tables identifier ∧
        ∃ table column, splitAtDot? identifier = some (table, column) ∧
          r = s.push table column := by
  unfold addColumn Offered
  cases hs : splitAtDot? identifier with
  | none => simp
  | some split =>
    obtain ⟨table, column⟩ := split
    by_cases hmem : table ∈ s.tables
    · cases hdb : db.table? table with
      | none => simp [hmem, hdb]
      | some t =>
        cases hc : t.hasColumn? column with
        | none => simp [hmem, hdb, hc]
        | some has =>
          cases has with
          | false => simp [hmem, hdb, hc]
          | true =>
            simp only [hmem, not_true_eq_false, if_false, hdb, hc, Except.ok.injEq,
              Option.some.injEq, Prod.mk.injEq]
            constructor
            · intro h
              subst h
              exact ⟨⟨table, column, t, ⟨rfl, rfl⟩, hmem, hdb, hc⟩, table, column, ⟨rfl, rfl⟩, rfl⟩
            · intro h
              obtain ⟨-, table', column', ⟨rfl, rfl⟩, rfl⟩ := h
              rfl
    · simp [hmem]

theorem tables_push (s : Selection) (table column : String) :
    (s.push table column).tables = s.tables := by
  simp only [tables, Fields.names, push, List.map_map]
  refine List.map_congr_left fun entry _ => ?_
  by_cases h : entry.1 = table <;> simp [h]

theorem eq_of_entries {s r : Selection} (h : r.entries = s.entries) : s = r := by
  cases s
  cases r
  simpa using h.symm

theorem addTables_eq_ok_iff {db : Database} {tables : List String} {s r : Selection} :
    tables.foldlM (addTable db) s = .ok r ↔
      tables.Nodup ∧ (∀ table ∈ tables, table ∉ s.tables ∧ (db.table? table).isSome) ∧
        r.entries = s.entries ++ tables.map (·, []) := by
  induction tables generalizing s with
  | nil =>
    simp only [List.foldlM_nil]
    constructor
    · intro h
      cases h
      simp
    · intro h
      have hentries : r.entries = s.entries := by simpa using h.2.2
      rw [eq_of_entries hentries]
      rfl
  | cons table rest ih =>
    rw [List.foldlM_cons, bind_eq_ok]
    simp only [addTable_eq_ok_iff, ih]
    constructor
    · intro h
      obtain ⟨listed, ⟨hnew, hdb, rfl⟩, hrest, hmem, hentries⟩ := h
      refine ⟨List.nodup_cons.2 ⟨fun h => ?_, hrest⟩, ?_, by simpa using hentries⟩
      · exact (hmem table h).1 (by simp [Selection.tables, Fields.names])
      · intro t ht
        rcases List.mem_cons.1 ht with rfl | ht
        · exact ⟨hnew, hdb⟩
        · obtain ⟨h, hsome⟩ := hmem t ht
          exact ⟨fun hold => h (by simp_all [Selection.tables, Fields.names]), hsome⟩
    · intro h
      obtain ⟨hnodup, hmem, hentries⟩ := h
      obtain ⟨hnot, hrest⟩ := List.nodup_cons.1 hnodup
      obtain ⟨hnew, hdb⟩ := hmem table (List.mem_cons_self ..)
      refine ⟨_, ⟨hnew, hdb, rfl⟩, hrest, fun t ht => ?_, by simpa using hentries⟩
      obtain ⟨h, hsome⟩ := hmem t (List.mem_cons_of_mem _ ht)
      refine ⟨?_, hsome⟩
      have hne : t ≠ table := by
        intro he
        exact hnot (he ▸ ht)
      simpa [Selection.tables, Fields.names, hne] using h

theorem addColumns_eq_ok_iff {db : Database} {columns : List String} {s r : Selection} :
    columns.foldlM (addColumn db) s = .ok r ↔
      (∀ identifier ∈ columns, Offered db s.tables identifier) ∧
        r.entries = s.entries.map fun (table, cs) =>
          (table, cs ++ columns.filterMap (columnOf? table)) := by
  induction columns generalizing s with
  | nil =>
    simp only [List.foldlM_nil]
    constructor
    · intro h
      cases h
      simp
    · intro h
      have hentries : r.entries = s.entries := by simpa using h.2
      rw [eq_of_entries hentries]
      rfl
  | cons identifier rest ih =>
    have hpush {table column : String} (hs : splitAtDot? identifier = some (table, column)) :
        (s.push table column).entries.map (fun (t, cs) => (t, cs ++ rest.filterMap (columnOf? t))) =
          s.entries.map fun (t, cs) => (t, cs ++ (identifier :: rest).filterMap (columnOf? t)) := by
      simp only [push, List.map_map]
      refine List.map_congr_left fun entry _ => ?_
      by_cases h : entry.1 = table
      · simp [columnOf?, hs, h]
      · simp [columnOf?, hs, h, Ne.symm h]
    rw [List.foldlM_cons, bind_eq_ok]
    simp only [addColumn_eq_ok_iff, ih, List.forall_mem_cons]
    constructor
    · intro h
      obtain ⟨pushed, ⟨hoffered, table, column, hs, rfl⟩, hrest, hentries⟩ := h
      -- A request leaves the tables as they are, so later ones are checked against the same tables.
      rw [tables_push] at hrest
      exact ⟨⟨hoffered, hrest⟩, hentries.trans (hpush hs)⟩
    · intro h
      obtain ⟨⟨hoffered, hrest⟩, hentries⟩ := h
      have hsplit := hoffered
      obtain ⟨table, column, _, hs, _⟩ := hsplit
      refine ⟨_, ⟨hoffered, table, column, hs, rfl⟩, ?_, hentries.trans (hpush hs).symm⟩
      rwa [tables_push]

/-- Association succeeds exactly with the selection of what is requested. -/
theorem associate_eq_ok_iff {db : Database} {tables columns : List String} {s : Selection} :
    associate db tables columns = .ok s ↔ Selects db tables columns s := by
  unfold associate
  rw [bind_eq_ok]
  simp only [addTables_eq_ok_iff, addColumns_eq_ok_iff]
  constructor
  · intro h
    obtain ⟨listed, ⟨hnodup, hmem, hlisted⟩, hoffered, hentries⟩ := h
    have htables : listed.tables = tables := by
      simp [Selection.tables, Fields.names, hlisted, empty, Function.comp_def]
    refine ⟨hnodup, fun t ht => (hmem t ht).2, by rwa [htables] at hoffered, ?_⟩
    simp [hentries, hlisted, empty, Function.comp_def]
  · intro h
    obtain ⟨hnodup, hexist, hoffered, hentries⟩ := h
    refine ⟨⟨tables.map (·, [])⟩, ⟨hnodup, fun t ht => ⟨?_, hexist t ht⟩, ?_⟩, ?_, ?_⟩
    · simp [Selection.tables, Fields.names, empty]
    · simp [empty]
    · simpa [Selection.tables, Fields.names, Function.comp_def] using hoffered
    · simpa [Function.comp_def] using hentries

namespace Selects

variable {db : Database} {tables columns : List String} {s : Selection}

theorem tables_eq (h : Selects db tables columns s) : s.tables = tables := by
  simp [Selection.tables, Fields.names, h.entries, Function.comp_def]

theorem columns?_eq (h : Selects db tables columns s) {table : String} (ht : table ∈ tables) :
    s.columns? table = some (columns.filterMap (columnOf? table)) := by
  rw [Selection.columns?, h.entries]
  clear h
  induction tables with
  | nil => simp at ht
  | cons t rest ih =>
    by_cases he : table = t
    · subst t; simp [Fields.get?]
    · have hrest : table ∈ rest := by simpa [he] using ht
      simpa [Fields.get?, List.lookup_cons, beq_false_of_ne he] using ih hrest

end Selects

end RowSelect.Query.Selection
