import RowSelect.Proofs.SelectedRows

/-!
When a query fails. All that can fail comes before the first scan and looks at a database no further
than its schema: which tables there are, and which columns their first records have.
-/

set_option autoImplicit false

namespace RowSelect

inductive Table.SameColumns : Table → Table → Prop where
  | empty : SameColumns ⟨[]⟩ ⟨[]⟩
  | first {r r' : Record} {rest rest' : List Record}
      (h : ∀ column, column ∈ Fields.names r ↔ column ∈ Fields.names r') :
      SameColumns ⟨r :: rest⟩ ⟨r' :: rest'⟩

structure Database.SameSchema (db db' : Database) : Prop where
  names : ∀ name, (db.table? name).isSome ↔ (db'.table? name).isSome
  columns : ∀ name t t', db.table? name = some t → db'.table? name = some t' →
    t.SameColumns t'

namespace Table.SameColumns

theorem symm {t t' : Table} (h : t.SameColumns t') : t'.SameColumns t := by
  cases h with
  | empty => exact .empty
  | first h => exact .first fun column => (h column).symm

theorem hasColumn?_eq {t t' : Table} (h : t.SameColumns t') (column : String) :
    t.hasColumn? column = t'.hasColumn? column := by
  cases h with
  | empty => rfl
  | first h =>
    have hsome := h column
    rw [← Fields.isSome_get?_iff, ← Fields.isSome_get?_iff] at hsome
    simpa [hasColumn?] using Bool.eq_iff_iff.2 hsome

end Table.SameColumns

namespace Database.SameSchema

variable {db db' : Database}

theorem symm (h : db.SameSchema db') : db'.SameSchema db :=
  ⟨fun name => (h.names name).symm, fun name t t' ht ht' => (h.columns name t' t ht' ht).symm⟩

theorem table? (h : db.SameSchema db') (name : String) :
    (db.table? name = none ∧ db'.table? name = none) ∨
    ∃ t t', db.table? name = some t ∧ db'.table? name = some t' ∧
      ∀ column, t.hasColumn? column = t'.hasColumn? column := by
  have hnames := h.names name
  cases ht : db.table? name with
  | none =>
    rw [ht] at hnames
    left
    exact ⟨rfl, by simpa using hnames⟩
  | some t =>
    right
    rw [ht] at hnames
    obtain ⟨t', ht'⟩ := Option.isSome_iff_exists.1 (hnames.1 rfl)
    exact ⟨t, t', rfl, ht', (h.columns name t t' ht ht').hasColumn?_eq⟩

end Database.SameSchema

namespace Query

section Schema

variable {db db' : Database}

theorem addTable_eq_of_sameSchema (h : db.SameSchema db') :
    Selection.addTable db = Selection.addTable db' := by
  funext s table
  unfold Selection.addTable
  rcases h.table? table with ⟨hnone, hnone'⟩ | ⟨t, t', ht, ht', -⟩
  · rw [hnone, hnone']
  · rw [ht, ht']
    rfl

theorem addColumn_eq_of_sameSchema (h : db.SameSchema db') :
    Selection.addColumn db = Selection.addColumn db' := by
  funext s identifier
  unfold Selection.addColumn
  cases Selection.splitAtDot? identifier with
  | none => rfl
  | some split =>
    obtain ⟨table, column⟩ := split
    rcases h.table? table with ⟨hnone, hnone'⟩ | ⟨t, t', ht, ht', hcolumns⟩
    · simp only [hnone, hnone']
    · simp only [ht, ht', hcolumns column]

theorem associate_eq_of_sameSchema (h : db.SameSchema db') : associate db = associate db' := by
  funext tables columns
  rw [associate, associate, addTable_eq_of_sameSchema h, addColumn_eq_of_sameSchema h]

theorem resolve_error_of_sameSchema (h : db.SameSchema db') {ref : ColumnRef} {e : Failure}
    (he : Column.resolve db ref = .error e) : Column.resolve db' ref = .error e := by
  unfold Column.resolve at he ⊢
  rcases h.table? ref.table with ⟨hnone, hnone'⟩ | ⟨t, t', ht, ht', hcolumns⟩
  · rw [hnone] at he
    rw [hnone']
    exact he
  · simp only [ht, hcolumns ref.column] at he
    simp only [ht']
    split at he
    · exact he
    · exact he
    · cases he

theorem resolve_ok_of_sameSchema (h : db.SameSchema db') {ref : ColumnRef} {col : Column}
    (hcol : Column.resolve db ref = .ok col) : ∃ col', Column.resolve db' ref = .ok col' := by
  cases hcol' : Column.resolve db' ref with
  | ok col' => exact ⟨col', rfl⟩
  | error e =>
    rw [resolve_error_of_sameSchema h.symm hcol'] at hcol
    cases hcol

theorem bind_error_of_sameSchema (h : db.SameSchema db') {operand : Operand} {e : Failure}
    (he : operand.bind db = .error e) : operand.bind db' = .error e := by
  cases operand with
  | literal v => cases he
  | column ref =>
    rcases bind_eq_error.1 he with hcol | ⟨col, -, hcol⟩
    · exact bind_eq_error.2 (.inl (resolve_error_of_sameSchema h hcol))
    · cases hcol

theorem build_error_of_sameSchema (h : db.SameSchema db') {condition : Option Condition}
    {e : Failure} (he : Predicate.build db condition = .error e) :
    Predicate.build db' condition = .error e := by
  cases condition with
  | none => cases he
  | some c =>
    rw [Predicate.build_some] at he ⊢
    rcases bind_eq_error.1 he with hleft | ⟨left, hleft, he⟩
    · exact bind_eq_error.2 (.inl (resolve_error_of_sameSchema h hleft))
    · obtain ⟨left', hleft'⟩ := resolve_ok_of_sameSchema h hleft
      rcases bind_eq_error.1 he with hright | ⟨right, -, hok⟩
      · have hright' := bind_error_of_sameSchema h hright
        exact bind_eq_error.2 (.inr ⟨left', hleft', bind_eq_error.2 (.inl hright')⟩)
      · cases hok

end Schema

theorem IsList.ne_nil {ts : List Token} {ws : List String} (h : IsList ts ws) : ws ≠ [] := by
  cases h <;> simp

theorem tables_ne_nil_of_parse {text : String} {s : Statement} (h : parse text = .ok s) :
    s.tables ≠ [] := by
  unfold parse read at h
  split at h
  · obtain ⟨ls, -, hs⟩ := readStatement_sound h
    generalize ls.map Located.token = ts at hs
    cases hs with
    | mk hcolumns htables hwhere hend => exact htables.ne_nil
  · cases h

theorem execute_eq_error_iff {db : Database} {text : String} {e : Failure} :
    execute db text = .error e ↔
      (∃ fault, parse text = .error fault ∧ e = .invalidSyntax fault) ∨
      ∃ s, parse text = .ok s ∧ (associate db s.tables s.columns = .error e ∨
        ∃ selection, associate db s.tables s.columns = .ok selection ∧
          Predicate.build db s.condition = .error e) := by
  rw [execute_eq_bind]
  cases hs : parse text with
  | error fault => simp [eq_comm]
  | ok s =>
    have htables := tables_ne_nil_of_parse hs
    simp only [mapError_ok, ok_bind, reduceCtorEq, false_and, exists_false, false_or,
      Except.ok.injEq, exists_eq_left']
    cases associate db s.tables s.columns with
    | error e' => simp
    | ok selection => cases Predicate.build db s.condition <;> simp [htables]

theorem execute_error_of_sameSchema {db db' : Database} (h : db.SameSchema db') {text : String}
    {e : Failure} (he : execute db text = .error e) : execute db' text = .error e := by
  rw [execute_eq_error_iff] at he ⊢
  rcases he with hparse | ⟨s, hparse, hassociate | ⟨selection, hassociate, hbuild⟩⟩
  · exact .inl hparse
  · rw [associate_eq_of_sameSchema h] at hassociate
    exact .inr ⟨s, hparse, .inl hassociate⟩
  · rw [associate_eq_of_sameSchema h] at hassociate
    exact .inr ⟨s, hparse, .inr ⟨selection, hassociate, build_error_of_sameSchema h hbuild⟩⟩

theorem execute_ok_of_sameSchema {db db' : Database} (h : db.SameSchema db') {text : String}
    {rows : List Row} (hrows : execute db text = .ok rows) :
    ∃ rows', execute db' text = .ok rows' := by
  cases hrows' : execute db' text with
  | ok rows' => exact ⟨rows', rfl⟩
  | error e =>
    rw [execute_error_of_sameSchema h.symm hrows'] at hrows
    cases hrows

inductive Refusal : Failure → Prop where
  | text (fault : SyntaxFault) : Refusal (.invalidSyntax fault)
  | reference (fault : ReferenceFault) : Refusal (.unknownReference fault)
  | emptyTable (table : String) : Refusal (.emptyTable table)

theorem refusal_of_foldlM {α β : Type} {step : β → α → Except Failure β}
    (hstep : ∀ b a e, step b a = .error e → Refusal e) {xs : List α} {b : β} {e : Failure}
    (h : xs.foldlM step b = .error e) : Refusal e := by
  induction xs generalizing b with
  | nil => cases h
  | cons x rest ih =>
    rw [List.foldlM_cons] at h
    rcases bind_eq_error.1 h with hx | ⟨b', -, hrest⟩
    · exact hstep b x e hx
    · exact ih hrest

theorem refusal_of_addTable {db : Database} {s : Selection} {table : String} {e : Failure}
    (h : Selection.addTable db s table = .error e) : Refusal e := by
  unfold Selection.addTable at h
  split at h
  · cases h
    exact .text _
  · split at h
    · cases h
      exact .reference _
    · cases h

theorem refusal_of_addColumn {db : Database} {s : Selection} {identifier : String} {e : Failure}
    (h : Selection.addColumn db s identifier = .error e) : Refusal e := by
  unfold Selection.addColumn at h
  split at h
  · cases h
    exact .reference _
  · split at h
    · cases h
      exact .reference _
    · split at h
      · cases h
        exact .reference _
      · split at h
        · cases h
          exact .emptyTable _
        · cases h
          exact .reference _
        · cases h

theorem refusal_of_associate {db : Database} {tables columns : List String} {e : Failure}
    (h : associate db tables columns = .error e) : Refusal e := by
  unfold associate at h
  rcases bind_eq_error.1 h with htables | ⟨s, -, hcolumns⟩
  · exact refusal_of_foldlM (fun _ _ _ => refusal_of_addTable) htables
  · exact refusal_of_foldlM (fun _ _ _ => refusal_of_addColumn) hcolumns

theorem refusal_of_resolve {db : Database} {ref : ColumnRef} {e : Failure}
    (h : Column.resolve db ref = .error e) : Refusal e := by
  unfold Column.resolve at h
  split at h
  · cases h
    exact .reference _
  · split at h
    · cases h
      exact .emptyTable _
    · cases h
      exact .reference _
    · cases h

theorem refusal_of_bind {db : Database} {operand : Operand} {e : Failure}
    (h : operand.bind db = .error e) : Refusal e := by
  cases operand with
  | literal v => cases h
  | column ref =>
    rcases bind_eq_error.1 h with hcol | ⟨col, -, hok⟩
    · exact refusal_of_resolve hcol
    · cases hok

theorem refusal_of_build {db : Database} {condition : Option Condition} {e : Failure}
    (h : Predicate.build db condition = .error e) : Refusal e := by
  cases condition with
  | none => cases h
  | some c =>
    rw [Predicate.build_some] at h
    rcases bind_eq_error.1 h with hleft | ⟨left, -, h⟩
    · exact refusal_of_resolve hleft
    · rcases bind_eq_error.1 h with hright | ⟨right, -, hok⟩
      · exact refusal_of_bind hright
      · cases hok

theorem refusal_of_execute {db : Database} {text : String} {e : Failure}
    (h : execute db text = .error e) : Refusal e := by
  rcases execute_eq_error_iff.1 h with ⟨fault, -, rfl⟩ | ⟨s, -, hassociate | ⟨-, -, hbuild⟩⟩
  · exact .text fault
  · exact refusal_of_associate hassociate
  · exact refusal_of_build hbuild

namespace Traced

variable {α β : Type}

def Quiet (x : Traced α) : Prop := ∀ name, Signal.enter (.scan name) ∉ x.signals

theorem quiet_ofExcept (outcome : Except Failure α) : (ofExcept outcome).Quiet := by
  simp [Quiet, ofExcept]

theorem quiet_emit_event (e : Event) : (emit (.event e)).Quiet := by
  simp [Quiet, emit]

theorem quiet_bind {x : Traced α} {f : α → Traced β} (hx : x.Quiet)
    (hf : ∀ a, x.outcome = .ok a → (f a).Quiet) : (x >>= f).Quiet := by
  intro name
  change _ ∉ (Traced.bind x f).signals
  unfold Traced.bind
  cases ha : x.outcome with
  | error e => exact hx name
  | ok a =>
    rw [List.mem_append, not_or]
    exact ⟨hx name, hf a ha name⟩

end Traced

open Traced

theorem quiet_traceParse (text : String) : (traceParse text).Quiet :=
  quiet_bind (quiet_ofExcept _) fun _ _ =>
    quiet_bind (quiet_emit_event _) fun _ _ => quiet_ofExcept _

theorem quiet_traceAssociate (db : Database) (s : Statement) : (traceAssociate db s).Quiet :=
  quiet_bind (quiet_ofExcept _) fun _ _ =>
    quiet_bind (quiet_emit_event _) fun _ _ => quiet_ofExcept _

/-- A run that comes to its first scan succeeds. -/
theorem quiet_traceRun {db : Database} {text : String} {e : Failure}
    (h : execute db text = .error e) : (traceRun db text).Quiet := by
  unfold traceRun
  refine quiet_bind (quiet_traceParse text) fun s hs => ?_
  refine quiet_bind (quiet_traceAssociate db s) fun selection hselection => ?_
  refine quiet_bind (quiet_ofExcept _) fun p hp => ?_
  refine quiet_bind (quiet_emit_event _) fun _ _ => ?_
  rw [outcome_traceParse] at hs
  have hparse := (mapError_eq_ok_iff _).1 hs
  rw [outcome_traceAssociate] at hselection
  rw [outcome_ofExcept] at hp
  have hok : execute db text = .ok (selectedRows db s) := by
    rw [execute_eq_bind, hparse]
    simp [hselection, hp, tables_ne_nil_of_parse hparse]
  rw [hok] at h
  cases h

theorem quiet_traceExecute {db : Database} {text : String} {e : Failure}
    (h : execute db text = .error e) : (traceExecute db text).Quiet := by
  intro name
  have hrun := quiet_traceRun h name
  have houtcome : (traceRun db text).outcome = .error e := h
  simp [traceExecute, within, houtcome, hrun]

/-- Whether a query fails, and how, is settled by the schema. What it fails with is a fault of the
text or of its names, and no table is scanned before; once the columns are looked up there is a table
to scan, and every listed table is found. -/
theorem execute_failures (db : Database) (text : String) :
    (∀ db' : Database, db.SameSchema db' →
      ((∃ rows, execute db text = .ok rows) ↔ ∃ rows, execute db' text = .ok rows) ∧
      ∀ e, execute db text = .error e ↔ execute db' text = .error e) ∧
    (∀ e, execute db text = .error e →
      Refusal e ∧ ∀ name, Signal.enter (.scan name) ∉ (traceExecute db text).signals) ∧
    ∀ s selection, parse text = .ok s → associate db s.tables s.columns = .ok selection →
      selection.tables ≠ [] ∧ ∀ name ∈ selection.tables, (db.table? name).isSome := by
  refine ⟨fun db' h => ⟨⟨?_, ?_⟩, fun e => ⟨?_, ?_⟩⟩, fun e he => ⟨?_, ?_⟩, ?_⟩
  · intro hrows
    obtain ⟨rows, hrows⟩ := hrows
    exact execute_ok_of_sameSchema h hrows
  · intro hrows
    obtain ⟨rows, hrows⟩ := hrows
    exact execute_ok_of_sameSchema h.symm hrows
  · exact execute_error_of_sameSchema h
  · exact execute_error_of_sameSchema h.symm
  · exact refusal_of_execute he
  · exact quiet_traceExecute he
  · intro s selection hs hselection
    have hselects := Selection.associate_eq_ok_iff.1 hselection
    rw [hselects.tables_eq]
    exact ⟨tables_ne_nil_of_parse hs, hselects.exist⟩

def restocked : Database :=
  ⟨[("a", ⟨[[("k", .null), ("x", .bool true)]]⟩),
    ("b", ⟨[[("y", .null)], [("z", .bool false)]]⟩)], by decide⟩

theorem sameSchema_stock : stock.SameSchema restocked := by
  have hlookup : ∀ name, (stock.table? name = none ∧ restocked.table? name = none) ∨
      ∃ t t', stock.table? name = some t ∧ restocked.table? name = some t' ∧
        t.SameColumns t' := by
    intro name
    by_cases ha : name = "a"
    · subst ha
      exact .inr ⟨_, _, rfl, rfl, .first (by simp [Fields.names, or_comm])⟩
    · by_cases hb : name = "b"
      · subst hb
        exact .inr ⟨_, _, rfl, rfl, .first (by simp [Fields.names])⟩
      · left
        simp [Database.table?, Fields.get?, stock, restocked, List.lookup_cons, ha, hb,
          beq_false_of_ne]
  refine ⟨fun name => ?_, fun name t t' ht ht' => ?_⟩
  · rcases hlookup name with ⟨h, h'⟩ | ⟨t, t', h, h', -⟩ <;> simp [h, h']
  · rcases hlookup name with ⟨h, -⟩ | ⟨u, u', h, h', hcolumns⟩
    · simp [h] at ht
    · rw [h] at ht
      rw [h'] at ht'
      cases ht
      cases ht'
      exact hcolumns

theorem parse_noTable : parse "SELECT c.x FROM c" = .ok ⟨["c.x"], ["c"], none⟩ := by
  have hfold : foldCase (Text.trim "SELECT c.x FROM c".toList) =
      .ok "select c.x from c".toList := eq_ok_of_toOption (by decide +kernel)
  apply eq_ok_of_toOption
  rw [parse_eq_readStatement hfold, readStatement, readTokens_eq_tokensWithin]
  decide +kernel

theorem execute_stock_noTable :
    execute stock "SELECT c.x FROM c" = .error (.unknownReference (.noTable "c")) := by
  rw [execute_eq_bind, parse_noTable]
  rfl

theorem execute_failures_stock :
    (∃ rows, execute restocked "SELECT b.y, a.x, b.y FROM a, b WHERE a.k <= 'q'" = .ok rows) ∧
    execute restocked "SELECT c.x FROM c" = .error (.unknownReference (.noTable "c")) ∧
    (∀ name, Signal.enter (.scan name) ∉ (traceExecute stock "SELECT c.x FROM c").signals) ∧
    ∃ selection, associate stock ["a", "b"] ["b.y", "a.x", "b.y"] = .ok selection ∧
      selection.tables ≠ [] ∧ ∀ name ∈ selection.tables, (stock.table? name).isSome := by
  have hselection : associate stock ["a", "b"] ["b.y", "a.x", "b.y"] =
      .ok ⟨[("a", ["x"]), ("b", ["y", "y"])]⟩ := eq_ok_of_toOption (by decide +kernel)
  obtain ⟨hsame, -, hlisted⟩ :=
    execute_failures stock "SELECT b.y, a.x, b.y FROM a, b WHERE a.k <= 'q'"
  obtain ⟨hsame', hrefused, -⟩ := execute_failures stock "SELECT c.x FROM c"
  refine ⟨?_, ?_, ?_, _, hselection, hlisted _ _ parse_stock hselection⟩
  · exact (hsame restocked sameSchema_stock).1.1 ⟨_, execute_stock⟩
  · exact ((hsame' restocked sameSchema_stock).2 _).1 execute_stock_noTable
  · exact (hrefused _ execute_stock_noTable).2

end Query

end RowSelect
