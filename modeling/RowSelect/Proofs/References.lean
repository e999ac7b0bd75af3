import RowSelect.Proofs.Conditions
import RowSelect.Proofs.Fields
import RowSelect.Proofs.Satisfaction
import RowSelect.Proofs.Selection

/-!
One word as a requested column and as an operand of a condition. A request splits the word at its
first dot, and the column may be any name; an operand is a word with a single dot and a character on
each side of it.
-/

set_option autoImplicit false

namespace RowSelect.Query

open RowSelect.Text Selection

def Requests (db : Database) (tables : List String) (w : String) (ref : ColumnRef) : Prop :=
  ∃ s, associate db tables [w] = .ok s ∧ s.columns? ref.table = some [ref.column]

def Binds (db : Database) (text : List Char) (c : Condition) : Prop :=
  readCondition text = .ok c ∧ ∃ p, Predicate.build db (some c) = .ok p

inductive Compares (text : List Char) (w : String) (t : Token) : Prop where
  | mk {ls : List Located} (op : Operator) (noise es : List Token) (htext : tokenize text = .ok ls)
      (htokens : ls.map Located.token = .word w :: .operator op :: (noise ++ t :: es))
      (hnoise : ∀ u ∈ noise, isNoise u = true) (hend : IsEnd es)

def ComparesLeft (db : Database) (w : String) (text : List Char) : Prop :=
  ∃ t right x, Compares text w t ∧ IsOperand t right ∧ right.bind db = .ok x

def ComparesRight (db : Database) (w : String) (text : List Char) : Prop :=
  ∃ v left col, Compares text v (.word w) ∧ IsQualified v left ∧ Column.resolve db left = .ok col

theorem requests_iff {db : Database} {tables : List String} {w : String} {ref : ColumnRef}
    (hnodup : tables.Nodup) (hexist : ∀ table ∈ tables, (db.table? table).isSome) :
    Requests db tables w ref ↔
      splitAtDot? w = some (ref.table, ref.column) ∧ ref.table ∈ tables ∧
        ∃ col, Column.resolve db ref = .ok col := by
  constructor
  · intro h
    obtain ⟨s, hs, hcolumns⟩ := h
    have hselects := associate_eq_ok_iff.1 hs
    have hlisted : ref.table ∈ tables := by
      rw [← hselects.tables_eq]
      exact Fields.isSome_get?_iff.1 (Option.isSome_of_eq_some hcolumns)
    obtain ⟨table, column, t, hsplit, -, hdb, hhas⟩ := hselects.offered w (by simp)
    rw [hselects.columns?_eq hlisted] at hcolumns
    by_cases htable : table = ref.table
    · subst htable
      simp only [columnOf?, hsplit, if_true, List.filterMap_cons, List.filterMap_nil,
        Option.some.injEq, List.cons.injEq, and_true] at hcolumns
      subst hcolumns
      exact ⟨hsplit, hlisted, _, Column.resolve_eq_ok_iff.2 ⟨t, hdb, hhas, rfl⟩⟩
    · simp [columnOf?, hsplit, htable] at hcolumns
  · intro h
    obtain ⟨hsplit, hlisted, col, hcol⟩ := h
    obtain ⟨t, hdb, hhas, -⟩ := Column.resolve_eq_ok_iff.1 hcol
    have hselects : Selects db tables [w] ⟨tables.map fun table =>
        (table, [w].filterMap (columnOf? table))⟩ :=
      ⟨hnodup, hexist, by simpa using ⟨_, _, t, hsplit, hlisted, hdb, hhas⟩, rfl⟩
    refine ⟨_, associate_eq_ok_iff.2 hselects, ?_⟩
    rw [hselects.columns?_eq hlisted]
    simp [columnOf?, hsplit]

/-- A word has a character before its first dot, so a request lacks only what an operand demands of
the column. -/
theorem isQualified_iff {w : String} {ref : ColumnRef}
    (hw : ∃ c ∈ w.toList.head?, isWordStart c = true) :
    IsQualified w ref ↔
      splitAtDot? w = some (ref.table, ref.column) ∧ ref.column ≠ "" ∧
        '.' ∉ ref.column.toList := by
  rw [splitAtDot?_eq_some_iff]
  constructor
  · intro h
    exact ⟨⟨h.eq, h.table_dot⟩, h.column_ne, h.column_dot⟩
  · intro h
    obtain ⟨⟨heq, hdot⟩, hne, hnot⟩ := h
    refine ⟨heq, ?_, hne, hdot, hnot⟩
    intro htable
    obtain ⟨c, hc, hstart⟩ := hw
    rw [heq, htable] at hc
    obtain rfl : '.' = c := by simpa using hc
    exact absurd hstart (by decide)

theorem Operand.bind_column {db : Database} {ref : ColumnRef} :
    (∃ x, (Operand.column ref).bind db = .ok x) ↔ ∃ col, Column.resolve db ref = .ok col := by
  simp only [Operand.bind]
  cases Column.resolve db ref <;> simp

theorem binds_iff {db : Database} {text : List Char} {c : Condition} :
    Binds db text c ↔
      (∃ ts es, Lexes text (ts ++ es) [] ∧ IsCondition ts c ∧ IsEnd es) ∧
        (∃ col, Column.resolve db c.left = .ok col) ∧ ∃ x, c.right.bind db = .ok x := by
  simp only [Binds, readCondition_eq_ok_iff, Predicate.build_some_eq_ok_iff]
  constructor
  · intro h
    obtain ⟨hread, p, left, right, hleft, hright, rfl⟩ := h
    exact ⟨hread, ⟨left, hleft⟩, right, hright⟩
  · intro h
    obtain ⟨hread, ⟨left, hleft⟩, right, hright⟩ := h
    exact ⟨hread, _, left, right, hleft, hright, rfl⟩

theorem IsCondition.operands {ts es es' noise : List Token} {c : Condition} {w : String}
    {op : Operator} {t : Token} (h : IsCondition ts c)
    (he : ts ++ es' = .word w :: .operator op :: (noise ++ t :: es))
    (hnoise : ∀ u ∈ noise, isNoise u = true) (ht : isNoise t = false) :
    IsQualified w c.left ∧ IsOperand t c.right := by
  cases h with
  | mk hw hnoise' ht' =>
    simp only [List.cons_append, List.append_assoc, List.nil_append, List.cons.injEq,
      Token.word.injEq, Token.operator.injEq] at he
    obtain ⟨rfl, rfl, he⟩ := he
    have hdrop := congrArg (List.dropWhile isNoise) he
    rw [dropWhile_append_stop hnoise' (isNoise_eq_false_of_isOperand ht'),
      dropWhile_append_stop hnoise ht] at hdrop
    cases hdrop
    exact ⟨hw, ht'⟩

theorem Compares.binds_iff {db : Database} {text : List Char} {w : String} {t : Token}
    {left : ColumnRef} {right : Operand} (h : Compares text w t) (ht : isNoise t = false) :
    (∃ op, Binds db text ⟨left, op, right⟩) ↔
      (IsQualified w left ∧ ∃ col, Column.resolve db left = .ok col) ∧
        IsOperand t right ∧ ∃ x, right.bind db = .ok x := by
  cases h with
  | mk op noise es htext htokens hnoise hend =>
    have hlexes := lexes_of_tokenizeFrom htext
    simp only [Query.binds_iff]
    constructor
    · intro h
      obtain ⟨op', ⟨ts, es', hlexes', hc, -⟩, hleft, hright⟩ := h
      have hsame := (hlexes'.eq_of_tokenize htext).symm.trans htokens
      obtain ⟨hw, hoperand⟩ := hc.operands hsame hnoise ht
      exact ⟨⟨hw, hleft⟩, hoperand, hright⟩
    · intro h
      obtain ⟨⟨hw, hleft⟩, hoperand, hright⟩ := h
      have hc : IsCondition (.word w :: .operator op :: (noise ++ [t])) ⟨left, op, right⟩ :=
        .mk hw hnoise hoperand
      exact ⟨op, ⟨_, es, by simpa [htokens] using hlexes, hc, hend⟩, hleft, hright⟩

theorem ComparesLeft.binds_iff {db : Database} {w : String} {text : List Char} {ref : ColumnRef}
    (h : ComparesLeft db w text) :
    (∃ c, Binds db text c ∧ c.left = ref) ↔
      IsQualified w ref ∧ ∃ col, Column.resolve db ref = .ok col := by
  obtain ⟨t, right, x, hcompares, hoperand, hright⟩ := h
  have ht := isNoise_eq_false_of_isOperand hoperand
  constructor
  · intro h
    obtain ⟨c, hc, rfl⟩ := h
    exact ((hcompares.binds_iff ht).1 ⟨c.operator, hc⟩).1
  · intro h
    obtain ⟨op, hop⟩ := (hcompares.binds_iff ht).2 ⟨h, hoperand, x, hright⟩
    exact ⟨_, hop, rfl⟩

theorem ComparesRight.binds_iff {db : Database} {w : String} {text : List Char} {ref : ColumnRef}
    (h : ComparesRight db w text) :
    (∃ c, Binds db text c ∧ c.right = .column ref) ↔
      IsQualified w ref ∧ ∃ col, Column.resolve db ref = .ok col := by
  obtain ⟨v, left, col, hcompares, hv, hleft⟩ := h
  constructor
  · intro h
    obtain ⟨⟨l, op, r⟩, hc, rfl⟩ := h
    obtain ⟨-, hoperand, hbind⟩ := (hcompares.binds_iff rfl).1 ⟨op, hc⟩
    cases hoperand with
    | column hw => exact ⟨hw, Operand.bind_column.1 hbind⟩
  · intro h
    obtain ⟨hw, hbind⟩ := h
    obtain ⟨op, hop⟩ := (hcompares.binds_iff rfl).2
      ⟨⟨hv, col, hleft⟩, .column hw, Operand.bind_column.2 hbind⟩
    exact ⟨_, hop, rfl⟩

theorem compares_equals {w : String} {cs : List Char} {t : Token}
    (hstart : ∃ c ∈ w.toList.head?, isWordStart c = true)
    (hchars : ∀ c ∈ w.toList, isWordChar c = true) (hcs : Lexes cs [t] [])
    (hhead : cs.head? ≠ some '=') :
    Compares (w.toList ++ (Operator.eq.symbol.toList ++ cs)) w t := by
  have hequals : ∀ c ∈ (Operator.eq.symbol.toList ++ cs).head?, isWordChar c = false := by
    intro c hc
    obtain rfl : '=' = c := by simpa [Operator.symbol] using hc
    decide
  have hlexes := (Lexes.word hstart hchars hequals).append
    ((Lexes.operator .eq hhead).append hcs)
  obtain ⟨ls, htext, htokens⟩ := tokenizeFrom_of_lexes hlexes rfl 0
  exact .mk .eq [] [] htext htokens (by simp) .bare

def IsPlain (column : String) : Prop := column ≠ "" ∧ '.' ∉ column.toList

theorem requests_and_isPlain_iff {db : Database} {tables : List String} {w : String}
    (hnodup : tables.Nodup) (hexist : ∀ table ∈ tables, (db.table? table).isSome)
    (hw : ∃ c ∈ w.toList.head?, isWordStart c = true) (ref : ColumnRef) :
    Requests db tables w ref ∧ IsPlain ref.column ↔
      (IsQualified w ref ∧ ∃ col, Column.resolve db ref = .ok col) ∧ ref.table ∈ tables := by
  rw [requests_iff hnodup hexist, isQualified_iff hw, IsPlain]
  tauto

/-- A word of a text, requested from the tables, is taken for a column without a dot in its name
exactly if it is taken for that column of those tables in the conditions that have it as an
operand. -/
theorem binds_iff_requests {db : Database} {tables : List String} {source : List Char}
    {ls : List Located} {w : String} (hnodup : tables.Nodup)
    (hexist : ∀ table ∈ tables, (db.table? table).isSome) (hsource : tokenize source = .ok ls)
    (hw : .word w ∈ ls.map Located.token) (ref : ColumnRef) :
    ((∃ text, ComparesLeft db w text) ∧ ∀ text, ComparesLeft db w text →
      ((∃ c, Binds db text c ∧ c.left = ref) ∧ ref.table ∈ tables ↔
        Requests db tables w ref ∧ IsPlain ref.column)) ∧
    ((Requests db tables w ref ∧ IsPlain ref.column → ∃ text, ComparesRight db w text) ∧
      ∀ text, ComparesRight db w text →
        ((∃ c, Binds db text c ∧ c.right = .column ref) ∧ ref.table ∈ tables ↔
          Requests db tables w ref ∧ IsPlain ref.column)) := by
  obtain ⟨hstart, hchars⟩ := (lexes_of_tokenizeFrom hsource).word_of_mem hw
  have hboth := requests_and_isPlain_iff hnodup hexist hstart ref
  refine ⟨⟨?_, fun text htext => ?_⟩, fun hrequests => ?_, fun text htext => ?_⟩
  · have hquote : isQuote '"' = true := by decide
    have hliteral : Lexes ['"', '"'] [.literal ""] [] := Lexes.literal (s := "") [] hquote (by simp)
    exact ⟨_, _, _, _, compares_equals hstart hchars hliteral (by simp), .string "", rfl⟩
  · rw [hboth, htext.binds_iff]
  · obtain ⟨⟨hqualified, col, hcol⟩, -⟩ := hboth.1 hrequests
    have hnone : ∀ c ∈ ([] : List Char).head?, isWordChar c = false := by simp
    have hword : Lexes w.toList [.word w] [] := by
      simpa using Lexes.word hstart hchars hnone
    have hhead : w.toList.head? ≠ some '=' := by
      intro h
      have := hchars '=' (List.mem_of_mem_head? h)
      exact absurd this (by decide)
    exact ⟨_, _, _, _, compares_equals hstart hchars hword hhead, hqualified, hcol⟩
  · rw [hboth, htext.binds_iff]

theorem binds_iff_requests_pair :
    (∃ c, Binds (Database.empty.insert "t" ⟨[[("a", .null), ("b", .null)]]⟩)
      "t.a >= 'x'".toList c ∧ c.left = ⟨"t", "a"⟩) ∧
    ∃ c, Binds (Database.empty.insert "t" ⟨[[("a", .null), ("b", .null)]]⟩)
      "t.b < (t.a ;".toList c ∧ c.right = .column ⟨"t", "a"⟩ := by
  generalize hdb : Database.empty.insert "t" ⟨[[("a", .null), ("b", .null)]]⟩ = db
  have hexist : ∀ table ∈ ["t"], (db.table? table).isSome := by
    subst hdb
    decide +kernel
  have hresolve : ∀ column ∈ ["a", "b"], ∃ col, Column.resolve db ⟨"t", column⟩ = .ok col := by
    subst hdb
    simp only [Column.resolve_eq_ok_iff, List.forall_mem_cons, List.not_mem_nil, false_imp_iff]
    exact ⟨⟨_, _, rfl, rfl, rfl⟩, ⟨_, _, rfl, rfl, rfl⟩, fun _ => trivial⟩
  have hrequests : Requests db ["t"] "t.a" ⟨"t", "a"⟩ ∧ IsPlain "a" :=
    ⟨(requests_iff (by decide) hexist).2
      ⟨by decide +kernel, by decide, hresolve "a" (by simp)⟩, by decide, by decide⟩
  have hge : Compares "t.a >= 'x'".toList "t.a" (.literal "x") := by
    have htext : tokenize "t.a >= 'x'".toList =
        .ok [⟨0, .word "t.a"⟩, ⟨4, .operator .ge⟩, ⟨7, .literal "x"⟩] :=
      tokenize_of_tokensWithin (by decide +kernel)
    exact .mk .ge [] [] htext rfl (by simp) .bare
  have hlt : Compares "t.b < (t.a ;".toList "t.b" (.word "t.a") := by
    have htext : tokenize "t.b < (t.a ;".toList = .ok [⟨0, .word "t.b"⟩, ⟨4, .operator .lt⟩,
        ⟨6, .other '('⟩, ⟨7, .word "t.a"⟩, ⟨11, .semicolon⟩] :=
      tokenize_of_tokensWithin (by decide +kernel)
    exact .mk .lt [.other '('] [.semicolon] htext rfl (by simp [isNoise]) .semicolon
  obtain ⟨col, hcol⟩ := hresolve "b" (by simp)
  have hleft : ComparesLeft db "t.a" "t.a >= 'x'".toList := ⟨_, _, _, hge, .string "x", rfl⟩
  have hright : ComparesRight db "t.a" "t.b < (t.a ;".toList :=
    ⟨_, _, col, hlt, ofWord?_eq_some_iff.1 (by decide +kernel), hcol⟩
  have hword : tokenize "t.a".toList = .ok [⟨0, .word "t.a"⟩] :=
    tokenize_of_tokensWithin (by decide +kernel)
  have hall := binds_iff_requests (by decide) hexist hword (List.mem_singleton.2 rfl) ⟨"t", "a"⟩
  exact ⟨((hall.1.2 _ hleft).2 hrequests).1, ((hall.2.2 _ hright).2 hrequests).1⟩

theorem not_forall_requests_binds :
    ¬∀ (db : Database) (tables : List String) (w : String) (ref : ColumnRef), tables.Nodup →
      (∀ table ∈ tables, (db.table? table).isSome) → tokenize w.toList = .ok [⟨0, .word w⟩] →
      (Requests db tables w ref ↔
        ∃ text c, ComparesLeft db w text ∧ Binds db text c ∧ c.left = ref ∧ ref.table ∈ tables) := by
  intro h
  have hword : tokenize "a.b.c".toList = .ok [⟨0, .word "a.b.c"⟩] :=
    tokenize_of_tokensWithin (by decide +kernel)
  have hrequests : Requests (Database.empty.insert "a" ⟨[[("b.c", .bool true)]]⟩) ["a"] "a.b.c"
      ⟨"a", "b.c"⟩ :=
    (requests_iff (by decide) (by decide +kernel)).2
      ⟨by decide +kernel, by decide, _, Column.resolve_eq_ok_iff.2 ⟨_, rfl, rfl, rfl⟩⟩
  obtain ⟨text, c, htext, hc, hleft, -⟩ :=
    (h _ _ _ _ (by decide) (by decide +kernel) hword).1 hrequests
  have hqualified := (htext.binds_iff.1 ⟨c, hc, hleft⟩).1
  exact hqualified.column_dot (by decide)

end RowSelect.Query
