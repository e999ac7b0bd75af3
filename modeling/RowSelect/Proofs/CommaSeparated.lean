import RowSelect.Proofs.Cells
import RowSelect.Proofs.Cutting
import RowSelect.Proofs.Outcome
import RowSelect.Report

/-!
Reading comma-separated values back. The reader follows RFC 4180: fields between commas, records
between line breaks, and between quotes any character, with a quote written twice. A quote inside a
field without quotes is refused, and so is a carriage return outside of quotes and line breaks.
Readers differ on blank lines, so what one stands for is left open.
-/

set_option autoImplicit false

namespace RowSelect.Report.Csv

def isPlainText (c : Char) : Bool := c != ',' && c != '"' && c != '\r' && c != '\n'

def readQuoted : List Char → Option (List Char × List Char)
  | [] => none
  | '"' :: '"' :: cs => (readQuoted cs).map fun (field, rest) => ('"' :: field, rest)
  | '"' :: cs => some ([], cs)
  | c :: cs => (readQuoted cs).map fun (field, rest) => (c :: field, rest)

def readField : List Char → Option (List Char × List Char)
  | '"' :: cs => readQuoted cs
  | cs => some (cs.takeWhile isPlainText, cs.dropWhile isPlainText)

def afterBreak? : List Char → Option (List Char)
  | '\n' :: cs => some cs
  | '\r' :: '\n' :: cs => some cs
  | _ => none

theorem readQuoted_length {cs field rest : List Char} (h : readQuoted cs = some (field, rest)) :
    rest.length < cs.length := by
  fun_induction readQuoted cs generalizing field with
  | case1 => cases h
  | case2 cs ih =>
    obtain ⟨⟨_, _⟩, hread, heq⟩ := Option.map_eq_some_iff.1 h
    cases heq
    have hlt := ih hread
    simp only [List.length_cons]
    omega
  | case3 cs =>
    cases h
    simp
  | case4 c cs _ _ ih =>
    obtain ⟨⟨_, _⟩, hread, heq⟩ := Option.map_eq_some_iff.1 h
    cases heq
    have hlt := ih hread
    simp only [List.length_cons]
    omega

theorem readField_length {cs field rest : List Char} (h : readField cs = some (field, rest)) :
    rest.length ≤ cs.length := by
  unfold readField at h
  split at h
  · have hlt := readQuoted_length h
    simp only [List.length_cons]
    omega
  · cases h
    exact (List.dropWhile_sublist isPlainText).length_le

theorem afterBreak?_length {cs rest : List Char} (h : afterBreak? cs = some rest) :
    rest.length < cs.length := by
  unfold afterBreak? at h
  split at h <;> cases h <;> simp only [List.length_cons] <;> omega

/-- The records of a text, of which the first has the given fields in front. A line with nothing in
it stands for the records `blank`. -/
def readFrom (blank : List (List (List Char))) (fields : List (List Char)) (cs : List Char) :
    Option (List (List (List Char))) :=
  match _h : readField cs with
  | none => none
  | some (field, []) => if fields = [] ∧ cs = [] then some [] else some [fields ++ [field]]
  | some (field, ',' :: rest) => readFrom blank (fields ++ [field]) rest
  | some (field, rest) =>
    match _hbreak : afterBreak? rest with
    | none => none
    | some below =>
      (readFrom blank [] below).map
        ((if fields = [] ∧ rest = cs then blank else [fields ++ [field]]) ++ ·)
termination_by cs.length
decreasing_by
  · have hle := readField_length _h
    simp only [List.length_cons] at hle
    omega
  · have hle := readField_length _h
    have hlt := afterBreak?_length _hbreak
    omega

def read (blank : List (List (List Char))) (text : List Char) :
    Option (List (List (List Char))) :=
  readFrom blank [] text

theorem isSpecial_eq (c : Char) : isSpecial c = !isPlainText c := by
  simp [isSpecial, isPlainText, Bool.not_and, bne]

theorem readQuoted_double (field : List Char) {rest : List Char} (h : rest.head? ≠ some '"') :
    readQuoted (field.flatMap (fun c => if c = '"' then ['"', '"'] else [c]) ++ '"' :: rest) =
      some (field, rest) := by
  induction field with
  | nil =>
    cases rest with
    | nil => rfl
    | cons d rest =>
      have hd : d ≠ '"' := by simpa using h
      simp [readQuoted, hd]
  | cons c field ih =>
    rw [List.flatMap_cons, List.append_assoc]
    by_cases hc : c = '"'
    · subst hc
      simp [readQuoted, ih]
    · simp [readQuoted, hc, ih]

def EndsField (rest : List Char) : Prop := ∀ c ∈ rest.head?, isPlainText c = false ∧ c ≠ '"'

theorem endsField_comma (rest : List Char) : EndsField (',' :: rest) := by
  simp [EndsField, isPlainText]

theorem endsField_newline (rest : List Char) : EndsField ('\n' :: rest) := by
  simp [EndsField, isPlainText]

theorem readField_writeField (field : List Char) {rest : List Char} (h : EndsField rest) :
    readField (writeField field ++ rest) = some (field, rest) := by
  have hrest : rest.head? ≠ some '"' := fun hhead => (h '"' hhead).2 rfl
  unfold writeField
  split
  · have hread := readQuoted_double field hrest
    simpa [readField] using hread
  · next hplain =>
    have hfield : ∀ c ∈ field, isPlainText c = true := by
      simpa [isSpecial_eq] using hplain
    have hhead : (field ++ rest).head? ≠ some '"' := by
      cases field with
      | nil => exact hrest
      | cons c field =>
        intro hc
        have hplain := hfield c (List.mem_cons_self ..)
        rw [Option.some.inj hc] at hplain
        cases hplain
    obtain ⟨htake, hdrop⟩ := cut_append (p := isPlainText) field fun c hc => (h c hc).1
    unfold readField
    split
    · next cs heq => simp [heq] at hhead
    · rw [htake, hdrop, List.takeWhile_eq_self_iff.2 hfield, List.dropWhile_eq_nil_iff.2 hfield,
        List.nil_append]

theorem readFrom_comma {cs field rest : List Char} (h : readField cs = some (field, ',' :: rest))
    (blank : List (List (List Char))) (fields : List (List Char)) :
    readFrom blank fields cs = readFrom blank (fields ++ [field]) rest := by
  rw [readFrom]
  split <;> simp_all

theorem readFrom_newline {cs field rest : List Char} (h : readField cs = some (field, '\n' :: rest))
    (blank : List (List (List Char))) {fields : List (List Char)}
    (hne : fields ≠ [] ∨ '\n' :: rest ≠ cs) :
    readFrom blank fields cs = (readFrom blank [] rest).map ((fields ++ [field]) :: ·) := by
  rw [readFrom]
  split
  · simp_all
  · simp_all
  · simp_all
  · next field' rest' _ hread =>
    rw [h] at hread
    cases hread
    have hline : ¬(fields = [] ∧ '\n' :: rest = cs) := by
      rintro ⟨hnil, hcs⟩
      rcases hne with hne | hne
      · exact hne hnil
      · exact hne hcs
    split
    · next hbreak => cases hbreak
    · next below hbreak =>
      cases hbreak
      rw [if_neg hline]
      rfl

theorem readFrom_intercalate (blank : List (List (List Char))) {fields : List (List Char)}
    (hfields : fields ≠ []) (before : List (List Char)) (rest : List Char)
    (hne : before ≠ [] ∨ [','].intercalate (fields.map writeField) ≠ []) :
    readFrom blank before ([','].intercalate (fields.map writeField) ++ '\n' :: rest) =
      (readFrom blank [] rest).map ((before ++ fields) :: ·) := by
  induction fields generalizing before with
  | nil => exact absurd rfl hfields
  | cons field fields ih =>
    cases fields with
    | nil =>
      simp only [List.map_cons, List.map_nil, List.intercalate_singleton] at hne ⊢
      refine readFrom_newline (readField_writeField field (endsField_newline rest)) blank ?_
      refine hne.imp_right fun hfield heq => hfield ?_
      exact List.append_left_eq_self.1 heq.symm
    | cons next fields =>
      have hread := readField_writeField field (endsField_comma
        ([','].intercalate ((next :: fields).map writeField) ++ '\n' :: rest))
      have hmore := ih (by simp) (before ++ [field]) (.inl (by simp))
      simp only [List.map_cons, List.intercalate_cons_cons, List.append_assoc,
        List.cons_append, List.nil_append] at hread hmore ⊢
      rw [readFrom_comma hread, hmore]

theorem eq_nil_of_writeField_eq_nil {field : List Char} (h : writeField field = []) :
    field = [] := by
  unfold writeField at h
  split at h
  · cases h
  · exact h

/-- Only a record of one empty field would leave its line blank. -/
theorem eq_of_intercalate_eq_nil {fields : List (List Char)} (hne : fields ≠ [])
    (h : [','].intercalate (fields.map writeField) = []) : fields = [[]] := by
  cases fields with
  | nil => exact absurd rfl hne
  | cons field fields =>
    cases fields with
    | nil =>
      rw [List.map_singleton, List.intercalate_singleton] at h
      rw [eq_nil_of_writeField_eq_nil h]
    | cons next fields => simp at h

theorem readFrom_writeRecord (blank : List (List (List Char))) {fields : List (List Char)}
    (hne : fields ≠ []) (rest : List Char) :
    readFrom blank [] (writeRecord fields ++ '\n' :: rest) =
      (readFrom blank [] rest).map (fields :: ·) := by
  by_cases hline : [','].intercalate (fields.map writeField) = []
  · obtain rfl := eq_of_intercalate_eq_nil hne hline
    have hread : readField ('"' :: '"' :: '\n' :: rest) = some ([], '\n' :: rest) := by
      simp [readField, readQuoted]
    exact readFrom_newline hread blank (.inr (by simp))
  · rw [writeRecord, if_neg hline]
    exact readFrom_intercalate blank hne [] rest (.inr hline)

theorem writeLines_eq_ok {count : Nat} {records : List (List (List Char))}
    (h : ∀ record ∈ records, record.length = count) :
    writeLines count records =
      .ok (records.flatMap fun record => writeRecord record ++ ['\n']) := by
  induction records with
  | nil => rfl
  | cons record records ih =>
    rw [writeLines, if_pos (h record (List.mem_cons_self ..)),
      ih fun r hr => h r (List.mem_cons_of_mem _ hr)]
    simp [Except.map]

theorem writeRecords_eq_ok {count : Nat} {records : List (List (List Char))}
    (h : ∀ record ∈ records, record.length = count) :
    writeRecords records = .ok (records.flatMap fun record => writeRecord record ++ ['\n']) := by
  cases records with
  | nil => rfl
  | cons record records =>
    refine writeLines_eq_ok fun r hr => ?_
    rw [List.headD_cons, h r hr, h record (List.mem_cons_self ..)]

theorem read_lines (blank : List (List (List Char))) {records : List (List (List Char))}
    (h : ∀ record ∈ records, record ≠ []) :
    read blank (records.flatMap fun record => writeRecord record ++ ['\n']) = some records := by
  rw [read]
  induction records with
  | nil =>
    rw [List.flatMap_nil, readFrom]
    simp [readField]
  | cons record records ih =>
    rw [List.flatMap_cons, List.append_assoc, List.singleton_append,
      readFrom_writeRecord blank (h record (List.mem_cons_self ..)),
      ih fun r hr => h r (List.mem_cons_of_mem _ hr)]
    rfl

theorem length_of_mem_records {rows : List (Fields Json)} {record : List (List Char)}
    (h : record ∈ (if header rows = [] then [] else [(header rows).map String.toList]) ++
      rows.map (cells (header rows))) : record.length = (header rows).length := by
  rcases List.mem_append.1 h with hheading | hcells
  · split at hheading
    · cases hheading
    · rw [List.mem_singleton.1 hheading, List.length_map]
  · obtain ⟨row, -, rfl⟩ := List.mem_map.1 hcells
    exact List.length_map ..

theorem exists_write (rows : List (Fields Json)) : ∃ text, write rows = .ok text :=
  ⟨_, writeRecords_eq_ok fun _ => length_of_mem_records⟩

/-- Rows with at least one name are always written, and any reader gets back one record more than
there are rows, all of one length: first the names in the order in which they are first seen, then
row by row the cells under them. -/
theorem render_csv_read {rows : List (Fields Json)} (color : Bool) (h : ∃ row ∈ rows, row ≠ []) :
    ListsFirstSeen (rows.flatMap Fields.names) (header rows) ∧
    ∃ text records, render rows .csv color = .ok text ∧
      (∀ blank, read blank text.toList = some ((header rows).map String.toList :: records)) ∧
      List.Forall₂ (HasCells (header rows)) rows records ∧
      records.length = rows.length ∧ ∀ record ∈ records, record.length = (header rows).length := by
  have hheader := header_ne_nil h
  have hlength : ∀ record ∈ (header rows).map String.toList :: rows.map (cells (header rows)),
      record.length = (header rows).length := fun record hrecord =>
    length_of_mem_records (by rwa [if_neg hheader, List.singleton_append])
  have hne : ∀ record ∈ (header rows).map String.toList :: rows.map (cells (header rows)),
      record ≠ [] := by
    rintro record hrecord rfl
    exact hheader (List.length_eq_zero_iff.1 (hlength _ hrecord).symm)
  obtain ⟨text, hwrite, hread⟩ : ∃ text, write rows = .ok text ∧
      ∀ blank, read blank text = some ((header rows).map String.toList ::
        rows.map (cells (header rows))) := by
    rw [write, if_neg hheader, List.singleton_append]
    exact ⟨_, writeRecords_eq_ok hlength, fun blank => read_lines blank hne⟩
  refine ⟨listsFirstSeen_header rows, .ofList text, rows.map (cells (header rows)), ?_,
    fun blank => ?_, forall₂_hasCells_iff.2 rfl, List.length_map ..,
    fun record hrecord => hlength record (List.mem_cons_of_mem _ hrecord)⟩
  · simp only [render, hwrite, Except.map, mapError_ok]
  · rw [String.toList_ofList, hread blank]

def oneAndHalf : Binary64 :=
  ⟨false, 0x18000000000000, 1022, by decide, .inl (by decide), by decide⟩

def quotations : List (Fields Json) :=
  [[("a,\"b", .string "x\r\ny"), ("c", .null)],
    [("d", .string "é,"), ("c", .number (.integer (-7) (by decide)))],
    [("c", .number (.real oneAndHalf))]]

def blanks : List (Fields Json) := [[], [("é", .string "")]]

theorem render_csv_read_quotations :
    (∃ row ∈ quotations, row ≠ []) ∧
    render quotations .csv false = .ok "\"a,\"\"b\",c,d\n\"x\r\ny\",null,\n,-7,\"é,\"\n,1.5,\n" ∧
    (∀ blank, read blank "\"a,\"\"b\",c,d\n\"x\r\ny\",null,\n,-7,\"é,\"\n,1.5,\n".toList =
      some [["a,\"b".toList, "c".toList, "d".toList], ["x\r\ny".toList, "null".toList, []],
        [[], "-7".toList, "é,".toList], [[], "1.5".toList, []]]) ∧
    (∃ row ∈ blanks, row ≠ []) ∧
    render blanks .csv false = .ok "é\n\"\"\n\"\"\n" ∧
    ∀ blank, read blank "é\n\"\"\n\"\"\n".toList = some [["é".toList], [[]], [[]]] := by
  have hquotations : ∃ row ∈ quotations, row ≠ [] :=
    ⟨_, List.mem_cons_self .., List.cons_ne_nil _ _⟩
  have hblanks : ∃ row ∈ blanks, row ≠ [] := ⟨[("é", .string "")], by simp [blanks], by simp⟩
  have htext : render quotations .csv false =
      .ok "\"a,\"\"b\",c,d\n\"x\r\ny\",null,\n,-7,\"é,\"\n,1.5,\n" := by
    decide +kernel
  have htext' : render blanks .csv false = .ok "é\n\"\"\n\"\"\n" := rfl
  have hrows : quotations.map (cells (header quotations)) =
      [["x\r\ny".toList, "null".toList, []], [[], "-7".toList, "é,".toList],
        [[], "1.5".toList, []]] := by
    decide +kernel
  obtain ⟨-, text, records, hrender, hread, hcells, -⟩ := render_csv_read false hquotations
  obtain ⟨-, text', records', hrender', hread', hcells', -⟩ := render_csv_read false hblanks
  rw [htext] at hrender
  rw [htext'] at hrender'
  cases hrender
  cases hrender'
  rw [forall₂_hasCells_iff.1 hcells, hrows] at hread
  rw [forall₂_hasCells_iff.1 hcells'] at hread'
  exact ⟨hquotations, htext, hread, hblanks, htext', hread'⟩

end RowSelect.Report.Csv
