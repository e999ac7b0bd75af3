import RowSelect.Proofs.Documents

/-!
Documents that name a table twice. A database that is read straight from the text has every member
turned into a table, also one that a later member of its name replaces; read by way of the value,
such a member is gone before it is looked at. The two agree on all other documents.
-/

set_option autoImplicit false

namespace RowSelect

/-- The value stands in the document under a name that a later member has, too. -/
def Json.Replaced (v d : Json) : Prop :=
  ∃ before name after, d = .object (before ++ (name, v) :: after) ∧ name ∈ Fields.names after

namespace Json

theorem distinctItems_eq_map (items : List Json) : distinctItems items = items.map distinct := by
  induction items with
  | nil => rfl
  | cons v rest ih => rw [distinctItems, ih, List.map_cons]

theorem distinctMembers_eq_map (members : List (String × Json)) :
    distinctMembers members = members.map fun m => (m.1, m.2.distinct) := by
  induction members with
  | nil => rfl
  | cons m rest ih => rw [distinctMembers, ih, List.map_cons]

theorem isRecord_distinct {v : Json} : v.distinct.IsRecord ↔ v.IsRecord := by
  cases v <;> simp [distinct, IsRecord]

theorem isTable_distinct {v : Json} : v.distinct.IsTable ↔ v.IsTable := by
  cases v <;> simp [distinct, IsTable, distinctItems_eq_map, isRecord_distinct]

end Json

namespace Database

open Json

theorem recordOfDocument?_eq_some_iff {v : Json} {record : Record} :
    recordOfDocument? v = some record ↔ v.distinct = .object record := by
  cases v <;> simp [recordOfDocument?, distinct]

theorem mapM_recordOfDocument?_eq_some_iff {rows : List Json} {records : List Record} :
    rows.mapM recordOfDocument? = some records ↔ rows.map distinct = records.map .object := by
  induction rows generalizing records with
  | nil => cases records <;> simp
  | cons row rest ih =>
    cases records <;> simp [Option.bind_eq_some_iff, recordOfDocument?_eq_some_iff, ih]

theorem tableOfDocument?_eq_some_iff {v : Json} {t : Table} :
    tableOfDocument? v = some t ↔ v.distinct = t.toJson := by
  obtain ⟨records⟩ := t
  cases v <;> simp [tableOfDocument?, distinct, distinctItems_eq_map, Table.toJson,
    mapM_recordOfDocument?_eq_some_iff]

theorem foldlM_insert_eq_some_iff {members : List (String × Json)} {start db : Database} :
    members.foldlM (fun db (name, v) => (tableOfDocument? v).map (db.insert name)) start = some db ↔
      ∃ ts, distinctMembers members = tableMembers ts ∧ db = start.insertAll ts := by
  -- Every member is converted when it is reached, also one that a later member replaces.
  induction members generalizing start with
  | nil =>
    constructor
    · intro h
      exact ⟨[], rfl, (Option.some.inj h).symm⟩
    · intro h
      obtain ⟨ts, hts, rfl⟩ := h
      obtain rfl := List.map_eq_nil_iff.1 hts.symm
      rfl
  | cons m rest ih =>
    obtain ⟨name, v⟩ := m
    rw [List.foldlM_cons, Option.bind_eq_bind, Option.bind_eq_some_iff]
    constructor
    · intro h
      obtain ⟨next, hnext, hrest⟩ := h
      obtain ⟨t, ht, rfl⟩ := Option.map_eq_some_iff.1 hnext
      obtain ⟨ts, hts, rfl⟩ := ih.1 hrest
      refine ⟨(name, t) :: ts, ?_, rfl⟩
      rw [distinctMembers, hts, tableOfDocument?_eq_some_iff.1 ht]
      rfl
    · intro h
      obtain ⟨ts, hts, rfl⟩ := h
      cases ts with
      | nil => cases hts
      | cons p ts =>
        obtain ⟨n, t⟩ := p
        obtain ⟨hhead, htail⟩ := List.cons.inj hts
        obtain ⟨rfl, hv⟩ := Prod.mk.inj hhead
        refine ⟨start.insert name t, ?_, ih.2 ⟨ts, htail, rfl⟩⟩
        exact Option.map_eq_some_iff.2 ⟨t, tableOfDocument?_eq_some_iff.2 hv, rfl⟩

theorem ofDocument?_eq_some_iff {d : Json} {db : Database} :
    ofDocument? d = some db ↔ ∃ members ts, d = .object members ∧
      distinctMembers members = tableMembers ts ∧ db = empty.insertAll ts := by
  cases d with
  | object members => simp [ofDocument?, foldlM_insert_eq_some_iff]
  | _ => simp [ofDocument?]

theorem insertAll_ofList (ts : Fields Table) :
    empty.insertAll (Fields.ofList ts) = empty.insertAll ts := by
  have hlast := perm_insertAll (Fields.ofList ts)
  rw [Fields.ofList_of_nodup (Fields.nodup_names_ofList ts)] at hlast
  exact eq_of_perm (hlast.trans (perm_insertAll ts).symm)

theorem distinct_object_tableMembers {members : List (String × Json)} {ts : Fields Table}
    (h : distinctMembers members = tableMembers ts) :
    distinct (.object members) = .object (tableMembers (Fields.ofList ts)) := by
  rw [distinct, h]
  exact congrArg Json.object (Fields.ofList_map Table.toJson ts)

theorem isDatabase_of_distinct {members : List (String × Json)}
    (h : (distinct (.object members)).IsDatabase)
    (hreplaced : ∀ v, Json.Replaced v (.object members) → v.IsTable) :
    (Json.object (distinctMembers members)).IsDatabase := by
  obtain ⟨kept, hkept, htables⟩ := h
  obtain rfl := Json.object.inj hkept
  refine ⟨_, rfl, fun m hm => ?_⟩
  rw [distinctMembers_eq_map] at hm htables
  obtain ⟨⟨name, v⟩, hmem, rfl⟩ := List.mem_map.1 hm
  obtain ⟨before, after, rfl⟩ := List.append_of_mem hmem
  by_cases hafter : name ∈ Fields.names after
  · exact isTable_distinct.2 (hreplaced v ⟨before, name, after, rfl, hafter⟩)
  · refine htables (name, v.distinct) (Fields.mem_ofList_iff.2 ⟨_, _, List.map_append, ?_⟩)
    simpa [Fields.names] using hafter

theorem ofDocument?_eq_some_iff_distinct {d : Json} {db : Database} :
    ofDocument? d = some db ↔ ofJson d.distinct = .ok db ∧ ∀ v, Json.Replaced v d → v.IsTable := by
  have hread : ∀ db, ofDocument? d = some db → ofJson d.distinct = .ok db := by
    intro db h
    obtain ⟨members, ts, rfl, hts, rfl⟩ := ofDocument?_eq_some_iff.1 h
    rw [distinct_object_tableMembers hts]
    exact ofJson_eq_ok_iff.2 ⟨_, rfl, (insertAll_ofList ts).symm⟩
  constructor
  · intro h
    refine ⟨hread db h, fun v hv => ?_⟩
    obtain ⟨members, ts, rfl, hts, rfl⟩ := ofDocument?_eq_some_iff.1 h
    obtain ⟨before, name, after, hmembers, -⟩ := hv
    obtain rfl := Json.object.inj hmembers
    have hmem : (name, v.distinct) ∈ tableMembers ts := by
      rw [← hts, distinctMembers_eq_map]
      exact List.mem_map.2 ⟨(name, v), by simp, rfl⟩
    obtain ⟨⟨n, t⟩, -, ht⟩ := List.mem_map.1 hmem
    exact isTable_distinct.1 (Table.isTable_iff.2 ⟨t, (Prod.mk.inj ht).2.symm⟩)
  · intro h
    obtain ⟨hok, hreplaced⟩ := h
    have hdistinct : d.distinct.IsDatabase := by
      obtain ⟨ts, hts, -⟩ := ofJson_eq_ok_iff.1 hok
      exact isDatabase_iff.2 ⟨ts, hts⟩
    cases d with
    | object members =>
      obtain ⟨ts, hts⟩ := isDatabase_iff.1 (isDatabase_of_distinct hdistinct hreplaced)
      have hsome := ofDocument?_eq_some_iff.2 ⟨members, ts, rfl, Json.object.inj hts, rfl⟩
      have := (hread _ hsome).symm.trans hok
      cases this
      exact hsome
    | _ => exact absurd hdistinct (by simp [IsDatabase, distinct])

theorem read_eq_ok_iff {text : String} {db : Database} :
    read text = .ok db ↔ ∃ d, Json.readDocument? text = some d ∧ ofJson d.distinct = .ok db := by
  rw [read, Json.read?]
  cases Json.readDocument? text with
  | none => simp
  | some d =>
    rw [Option.map_some]
    cases h : ofJson d.distinct <;> simp [Except.mapError, h]

/-- A database is read straight from a text if it is read by way of the value, and what is replaced
on the way is a table as well. -/
theorem readDocument?_bind_eq_some_iff (text : String) (db : Database) :
    (Json.readDocument? text).bind ofDocument? = some db ↔
      read text = .ok db ∧
        ∀ d v, Json.readDocument? text = some d → Json.Replaced v d → v.IsTable := by
  rw [Option.bind_eq_some_iff, read_eq_ok_iff]
  constructor
  · intro h
    obtain ⟨d, hd, hdb⟩ := h
    obtain ⟨hok, hreplaced⟩ := ofDocument?_eq_some_iff_distinct.1 hdb
    refine ⟨⟨d, hd, hok⟩, fun d' v hd' hv => hreplaced v ?_⟩
    rw [hd] at hd'
    cases hd'
    exact hv
  · intro h
    obtain ⟨⟨d, hd, hok⟩, hreplaced⟩ := h
    exact ⟨d, hd, ofDocument?_eq_some_iff_distinct.2 ⟨hok, fun v => hreplaced d v hd⟩⟩

theorem readDocument?_bind_ne_read :
    ¬ ∀ text, (∃ db, (Json.readDocument? text).bind ofDocument? = some db) ↔
      ∃ db, read text = .ok db := by
  intro h
  let text := "\x7b\"t\":1,\"t\":[]\x7d"
  have htyped : ((Json.readDocument? text).bind ofDocument?).isNone = true := by decide +kernel
  have hvalue : (read text).toOption.isSome = true := by decide +kernel
  obtain ⟨read, hread⟩ := Option.isSome_iff_exists.1 hvalue
  obtain ⟨db, hdb⟩ := (h text).2 ⟨read, eq_ok_of_toOption hread⟩
  rw [hdb] at htyped
  cases htyped

end Database

end RowSelect
