import Mathlib.Data.List.Nodup
import RowSelect.Database.Document
import RowSelect.Proofs.ByteOrder
import RowSelect.Proofs.Fields
import RowSelect.Proofs.Outcome

/-!
Databases and the values they are read from. A value is a database if it is an object of arrays of
objects; the database then has every row of it, and writing it back only puts the tables in order. A
value of another shape is refused for the first place where it differs.
-/

set_option autoImplicit false

namespace RowSelect

namespace Json

def IsRecord (v : Json) : Prop := ∃ members, v = .object members

def IsTable (v : Json) : Prop := ∃ rows, v = .array rows ∧ ∀ row ∈ rows, row.IsRecord

def IsDatabase (v : Json) : Prop := ∃ members, v = .object members ∧ ∀ m ∈ members, m.2.IsTable

end Json

inductive TableDefect (name : String) : Json → SchemaFault → Prop where
  | notArray {v : Json} (hv : ∀ rows, v ≠ .array rows) : TableDefect name v (.notRecords name)
  | row {before after : List Json} {row : Json} (hbefore : ∀ r ∈ before, r.IsRecord)
      (hrow : ¬ row.IsRecord) :
      TableDefect name (.array (before ++ row :: after)) (.notRecord before.length name row)

/-- The first thing, in the order of the document, that keeps a value from being a database. -/
inductive DatabaseDefect : Json → SchemaFault → Prop where
  | notObject {v : Json} (hv : ∀ members, v ≠ .object members) : DatabaseDefect v .notTables
  | table {before after : List (String × Json)} {name : String} {v : Json} {e : SchemaFault}
      (hbefore : ∀ m ∈ before, m.2.IsTable) (hv : TableDefect name v e) :
      DatabaseDefect (.object (before ++ (name, v) :: after)) e

theorem exists_records_or_row (rows : List Json) :
    (∃ records : List Record, rows = records.map .object) ∨
    ∃ before row after, rows = before ++ row :: after ∧ (∀ r ∈ before, r.IsRecord) ∧
      ¬ row.IsRecord := by
  induction rows with
  | nil => exact .inl ⟨[], rfl⟩
  | cons row rest ih =>
    by_cases hrow : row.IsRecord
    · obtain ⟨members, rfl⟩ := hrow
      rcases ih with ⟨records, rfl⟩ | ⟨before, r, after, rfl, hbefore, hr⟩
      · exact .inl ⟨members :: records, rfl⟩
      · refine .inr ⟨.object members :: before, r, after, rfl, ?_, hr⟩
        exact List.forall_mem_cons.2 ⟨⟨members, rfl⟩, hbefore⟩
    · exact .inr ⟨[], row, rest, rfl, by simp, hrow⟩

theorem readRecords_records (name : String) (i : Nat) (records : List Record) :
    readRecords name i (records.map .object) = .ok records := by
  induction records generalizing i with
  | nil => rfl
  | cons record records ih => rw [List.map_cons, readRecords, ih]

theorem readRecords_of_not_isRecord (name : String) (i : Nat) {before after : List Json}
    {row : Json} (hbefore : ∀ r ∈ before, r.IsRecord) (hrow : ¬ row.IsRecord) :
    readRecords name i (before ++ row :: after) =
      .error (.notRecord (i + before.length) name row) := by
  induction before generalizing i with
  | nil =>
    cases row with
    | object members => exact absurd ⟨members, rfl⟩ hrow
    | _ => rfl
  | cons r before ih =>
    obtain ⟨⟨members, rfl⟩, hrest⟩ := List.forall_mem_cons.1 hbefore
    rw [List.cons_append, readRecords, ih (i + 1) hrest, List.length_cons, Nat.add_assoc,
      Nat.add_comm 1]

namespace Table

theorem toJson_injective : Function.Injective toJson := by
  intro t t' h
  have hobject : Function.Injective Json.object := fun _ _ he => Json.object.inj he
  exact congrArg Table.mk (hobject.list_map (Json.array.inj h))

theorem isTable_iff {v : Json} : v.IsTable ↔ ∃ t : Table, v = t.toJson := by
  constructor
  · intro h
    obtain ⟨rows, rfl, hrows⟩ := h
    rcases exists_records_or_row rows with ⟨records, rfl⟩ | ⟨before, row, after, rfl, -, hrow⟩
    · exact ⟨⟨records⟩, rfl⟩
    · exact absurd (hrows row (by simp)) hrow
  · intro h
    obtain ⟨t, rfl⟩ := h
    refine ⟨_, rfl, fun row hrow => ?_⟩
    obtain ⟨record, -, rfl⟩ := List.mem_map.1 hrow
    exact ⟨record, rfl⟩

theorem ofJson_toJson (name : String) (t : Table) : ofJson name t.toJson = .ok t := by
  rw [toJson, ofJson, readRecords_records]
  rfl

theorem ofJson_of_defect {name : String} {v : Json} {e : SchemaFault} (h : TableDefect name v e) :
    ofJson name v = .error e := by
  cases h with
  | notArray hv =>
    cases v with
    | array rows => exact absurd rfl (hv rows)
    | _ => rfl
  | row hbefore hrow =>
    rw [ofJson, readRecords_of_not_isRecord name 0 hbefore hrow, Nat.zero_add]
    rfl

theorem exists_toJson_or_defect (name : String) (v : Json) :
    (∃ t : Table, v = t.toJson) ∨ ∃ e, TableDefect name v e := by
  cases v with
  | array rows =>
    rcases exists_records_or_row rows with ⟨records, rfl⟩ | ⟨before, row, after, rfl, hbefore, hrow⟩
    · exact .inl ⟨⟨records⟩, rfl⟩
    · exact .inr ⟨_, .row hbefore hrow⟩
  | _ => exact .inr ⟨_, .notArray nofun⟩

end Table

def tableMembers (ts : Fields Table) : List (String × Json) :=
  ts.map fun (name, t) => (name, t.toJson)

theorem names_tableMembers (ts : Fields Table) :
    Fields.names (tableMembers ts) = Fields.names ts := by
  simp [tableMembers, Fields.names, Function.comp_def]

namespace Database

def insertAll (db : Database) (ts : Fields Table) : Database :=
  ts.foldl (fun db m => db.insert m.1 m.2) db

theorem addMembers_tableMembers (db : Database) (ts : Fields Table) :
    addMembers db (tableMembers ts) = .ok (db.insertAll ts) := by
  induction ts generalizing db with
  | nil => rfl
  | cons m ts ih =>
    obtain ⟨name, t⟩ := m
    have hstep : addMembers db (tableMembers ((name, t) :: ts)) =
        addMembers (db.insert name t) (tableMembers ts) := by
      simp only [tableMembers, List.map_cons, addMembers, Table.ofJson_toJson]
    rw [hstep, ih]
    rfl

theorem addMembers_of_defect (db : Database) {before after : List (String × Json)} {name : String}
    {v : Json} {e : SchemaFault} (hbefore : ∀ m ∈ before, m.2.IsTable) (hv : TableDefect name v e) :
    addMembers db (before ++ (name, v) :: after) = .error e := by
  induction before generalizing db with
  | nil => rw [List.nil_append, addMembers, Table.ofJson_of_defect hv]
  | cons m before ih =>
    obtain ⟨n, w⟩ := m
    obtain ⟨hw, hrest⟩ := List.forall_mem_cons.1 hbefore
    obtain ⟨t, ht⟩ := Table.isTable_iff.1 hw
    obtain rfl : w = t.toJson := ht
    rw [List.cons_append, addMembers, Table.ofJson_toJson]
    exact ih _ hrest

theorem exists_tables_or_member (members : List (String × Json)) :
    (∃ ts, members = tableMembers ts) ∨
    ∃ before name v after e, members = before ++ (name, v) :: after ∧
      (∀ m ∈ before, m.2.IsTable) ∧ TableDefect name v e := by
  induction members with
  | nil => exact .inl ⟨[], rfl⟩
  | cons m rest ih =>
    obtain ⟨name, v⟩ := m
    rcases Table.exists_toJson_or_defect name v with ⟨t, rfl⟩ | ⟨e, hv⟩
    · rcases ih with ⟨ts, rfl⟩ | ⟨before, n, w, after, e, rfl, hbefore, hw⟩
      · exact .inl ⟨(name, t) :: ts, rfl⟩
      · refine .inr ⟨(name, t.toJson) :: before, n, w, after, e, rfl, ?_, hw⟩
        exact List.forall_mem_cons.2 ⟨Table.isTable_iff.2 ⟨t, rfl⟩, hbefore⟩
    · exact .inr ⟨[], name, v, rest, e, rfl, by simp, hv⟩

theorem exists_tableMembers_or_defect (v : Json) :
    (∃ ts, v = .object (tableMembers ts)) ∨ ∃ e, DatabaseDefect v e := by
  cases v with
  | object members =>
    rcases exists_tables_or_member members with
      ⟨ts, rfl⟩ | ⟨before, name, v, after, e, rfl, hbefore, hv⟩
    · exact .inl ⟨ts, rfl⟩
    · exact .inr ⟨e, .table hbefore hv⟩
  | _ => exact .inr ⟨_, .notObject nofun⟩

theorem ofJson_of_defect {v : Json} {e : SchemaFault} (h : DatabaseDefect v e) :
    ofJson v = .error e := by
  cases h with
  | notObject hv =>
    cases v with
    | object members => exact absurd rfl (hv members)
    | _ => rfl
  | table hbefore hv => exact addMembers_of_defect empty hbefore hv

theorem ofJson_eq_ok_iff {v : Json} {db : Database} :
    ofJson v = .ok db ↔ ∃ ts, v = .object (tableMembers ts) ∧ db = empty.insertAll ts := by
  constructor
  · intro h
    rcases exists_tableMembers_or_defect v with ⟨ts, rfl⟩ | ⟨e, hdefect⟩
    · rw [ofJson, addMembers_tableMembers] at h
      exact ⟨ts, rfl, (Except.ok.inj h).symm⟩
    · rw [ofJson_of_defect hdefect] at h
      cases h
  · intro h
    obtain ⟨ts, rfl, rfl⟩ := h
    rw [ofJson, addMembers_tableMembers]

theorem ofJson_eq_error_iff {v : Json} {e : SchemaFault} :
    ofJson v = .error e ↔ DatabaseDefect v e := by
  constructor
  · intro h
    rcases exists_tableMembers_or_defect v with ⟨ts, rfl⟩ | ⟨e', hdefect⟩
    · rw [ofJson, addMembers_tableMembers] at h
      cases h
    · rw [ofJson_of_defect hdefect] at h
      cases h
      exact hdefect
  · exact ofJson_of_defect

theorem isDatabase_iff {v : Json} : v.IsDatabase ↔ ∃ ts, v = .object (tableMembers ts) := by
  constructor
  · intro h
    obtain ⟨members, rfl, hmembers⟩ := h
    rcases exists_tables_or_member members with ⟨ts, rfl⟩ | ⟨before, name, v, after, e, rfl, -, hv⟩
    · exact ⟨ts, rfl⟩
    · obtain ⟨t, rfl⟩ := Table.isTable_iff.1 (hmembers (name, v) (by simp))
      have herror := Table.ofJson_of_defect hv
      rw [Table.ofJson_toJson] at herror
      cases herror
  · intro h
    obtain ⟨ts, rfl⟩ := h
    refine ⟨_, rfl, fun m hm => ?_⟩
    obtain ⟨⟨name, t⟩, -, rfl⟩ := List.mem_map.1 hm
    exact Table.isTable_iff.2 ⟨t, rfl⟩

theorem nodup_names_tables (db : Database) : (Fields.names db.tables).Nodup := by
  refine List.pairwise_map.2 (db.ordered.imp ?_)
  intro a b hab he
  rw [he] at hab
  exact String.lt_irrefl _ hab

theorem mem_insertOrdered_iff {ts : Fields Table} (h : ts.Pairwise fun a b => a.1 < b.1)
    {name : String} {table : Table} {x : String × Table} :
    x ∈ insertOrdered name table ts ↔ x = (name, table) ∨ x ∈ ts ∧ x.1 ≠ name := by
  induction ts with
  | nil => simp [insertOrdered]
  | cons m rest ih =>
    obtain ⟨n, t⟩ := m
    obtain ⟨hn, hrest⟩ := List.pairwise_cons.1 h
    rw [insertOrdered]
    by_cases he : n = name
    · subst n
      have hne : ∀ y ∈ rest, y.1 ≠ name := fun y hy he => String.lt_irrefl _ (he ▸ hn y hy)
      rw [if_pos rfl]
      grind
    rw [if_neg he]
    by_cases hlt : name < n
    · have hne : ∀ y ∈ rest, y.1 ≠ name := fun y hy he =>
        String.lt_asymm hlt (he ▸ hn y hy)
      rw [if_pos hlt]
      grind
    · rw [if_neg hlt, List.mem_cons, ih hrest]
      grind

theorem perm_insert {db : Database} {fs : Fields Table} (h : db.tables.Perm fs) (name : String)
    (t : Table) : (db.insert name t).tables.Perm (Fields.insert fs name t) := by
  have hfs : (Fields.names fs).Nodup := (h.map Prod.fst).nodup_iff.1 db.nodup_names_tables
  refine (List.perm_ext_iff_of_nodup ?_ ?_).2 fun x => ?_
  · exact List.Nodup.of_map Prod.fst (nodup_names_tables _)
  · exact List.Nodup.of_map Prod.fst (Fields.nodup_names_insert hfs name t)
  · rw [insert, mem_insertOrdered_iff db.ordered, Fields.mem_insert_iff hfs, h.mem_iff]

theorem perm_insertAll (ts : Fields Table) :
    (empty.insertAll ts).tables.Perm (Fields.ofList ts) := by
  induction ts using List.reverseRecOn with
  | nil => rfl
  | append_singleton ts m ih =>
    rw [Fields.ofList_append_singleton, insertAll, List.foldl_append]
    exact perm_insert ih m.1 m.2

theorem table?_eq_some_iff {db : Database} {name : String} {t : Table} :
    db.table? name = some t ↔ (name, t) ∈ db.tables :=
  Fields.get?_eq_some_iff_mem db.nodup_names_tables

theorem eq_of_perm {db db' : Database} (h : db.tables.Perm db'.tables) : db = db' := by
  have htables : db.tables = db'.tables := by
    refine h.eq_of_pairwise (fun a b _ _ hab hba => ?_) db.ordered db'.ordered
    exact absurd hba (String.lt_asymm hab)
  cases db
  cases db'
  cases htables
  rfl

theorem insertAll_tables (db : Database) : empty.insertAll db.tables = db := by
  have hperm := perm_insertAll db.tables
  rw [Fields.ofList_of_nodup db.nodup_names_tables] at hperm
  exact eq_of_perm hperm

theorem ofJson_toJson (db : Database) : ofJson db.toJson = .ok db :=
  ofJson_eq_ok_iff.2 ⟨db.tables, rfl, db.insertAll_tables.symm⟩

/-- The database has the members of an object for its tables, row by row, and it is written as those
members in the order of the bytes of their names. -/
structure Keeps (db : Database) (members : List (String × Json)) : Prop where
  tables : ∀ name t, db.table? name = some t ↔ (name, .array (t.records.map .object)) ∈ members
  written : ∃ sorted, db.toJson = .object sorted ∧ sorted.Perm members ∧
    sorted.Pairwise fun a b => compare (Text.utf8Bytes a.1) (Text.utf8Bytes b.1) = .lt
  again : ofJson db.toJson = .ok db

theorem keeps_of_perm {db : Database} {ts : Fields Table} (h : db.tables.Perm ts) :
    db.Keeps (tableMembers ts) where
  tables := by
    intro name t
    rw [table?_eq_some_iff, h.mem_iff, ← Table.toJson, tableMembers, List.mem_map]
    constructor
    · intro hmem
      exact ⟨(name, t), hmem, rfl⟩
    · intro hmem
      obtain ⟨⟨n, t'⟩, hmem, heq⟩ := hmem
      obtain ⟨rfl, ht⟩ := Prod.mk.inj heq
      rwa [← Table.toJson_injective ht]
  written := by
    refine ⟨tableMembers db.tables, rfl, h.map _, List.pairwise_map.2 (db.ordered.imp ?_)⟩
    exact Text.compare_utf8Bytes_eq_lt
  again := db.ofJson_toJson

/-- Reading succeeds exactly for objects of arrays of objects. As an object names no member twice,
everything is kept but the order of the tables. Any other value is refused for its first defect. -/
theorem ofJson_outcomes (v : Json) :
    ((∃ db, ofJson v = .ok db) ↔ v.IsDatabase) ∧
    (∀ db members, ofJson v = .ok db → v = .object members → (Fields.names members).Nodup →
      db.Keeps members) ∧
    ∀ e, (ofJson v).mapError Failure.schema = .error e ↔
      ∃ fault, e = .schema fault ∧ DatabaseDefect v fault := by
  refine ⟨?_, fun db members hdb hv hnames => ?_, fun e => ?_⟩
  · rw [isDatabase_iff]
    constructor
    · intro h
      obtain ⟨db, hdb⟩ := h
      obtain ⟨ts, hv, -⟩ := ofJson_eq_ok_iff.1 hdb
      exact ⟨ts, hv⟩
    · intro h
      obtain ⟨ts, hv⟩ := h
      exact ⟨_, ofJson_eq_ok_iff.2 ⟨ts, hv, rfl⟩⟩
  · obtain ⟨ts, hts, rfl⟩ := ofJson_eq_ok_iff.1 hdb
    obtain rfl := Json.object.inj (hv.symm.trans hts)
    rw [names_tableMembers] at hnames
    have hperm := perm_insertAll ts
    rw [Fields.ofList_of_nodup hnames] at hperm
    exact keeps_of_perm hperm
  · rw [mapError_eq_error_iff]
    simp only [ofJson_eq_error_iff]
    constructor
    · intro h
      obtain ⟨fault, hfault, rfl⟩ := h
      exact ⟨fault, rfl, hfault⟩
    · intro h
      obtain ⟨fault, rfl, hfault⟩ := h
      exact ⟨fault, hfault, rfl⟩

theorem ofJson_outcomes_shelf :
    (∃ db, ofJson (.object [("b", .array [.object [("z", .bool true), ("a", .null)], .object []]),
        ("a", .array [])]) = .ok db ∧
      db.Keeps [("b", .array [.object [("z", .bool true), ("a", .null)], .object []]),
        ("a", .array [])]) ∧
    (ofJson (.object [("b", .array [.object [], .null, .null]), ("a", .null)])).mapError
      Failure.schema = .error (.schema (.notRecord 1 "b" .null)) := by
  have hnull : ¬ Json.null.IsRecord := by simp [Json.IsRecord]
  have hdefect : DatabaseDefect (.object [("b", .array [.object [], .null, .null]), ("a", .null)])
      (.notRecord 1 "b" .null) :=
    @DatabaseDefect.table [] _ _ _ _ (by simp)
      (@TableDefect.row _ [.object []] _ _ (by simp [Json.IsRecord]) hnull)
  constructor
  · obtain ⟨hread, hkeeps, -⟩ := ofJson_outcomes (.object [("b", .array
      [.object [("z", .bool true), ("a", .null)], .object []]), ("a", .array [])])
    obtain ⟨db, hdb⟩ := hread.2 ⟨_, rfl, by simp [Json.IsTable, Json.IsRecord]⟩
    exact ⟨db, hdb, hkeeps db _ hdb rfl (by decide)⟩
  · obtain ⟨-, -, hrefused⟩ :=
      ofJson_outcomes (.object [("b", .array [.object [], .null, .null]), ("a", .null)])
    exact (hrefused _).2 ⟨_, rfl, hdefect⟩

end Database

end RowSelect
