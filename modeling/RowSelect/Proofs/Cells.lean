import Mathlib.Data.List.Basic
import Mathlib.Data.List.Forall2
import RowSelect.Proofs.Fields
import RowSelect.Proofs.JsonText
import RowSelect.Report.Cells

/-!
What the header and the cells of a report have to be, said without the functions that make them.
-/

set_option autoImplicit false

namespace RowSelect.Report

/-- The list has everything that is seen, once each and in the order in which it is first seen. -/
structure ListsFirstSeen (seen names : List String) : Prop where
  mem_iff : ∀ name, name ∈ names ↔ name ∈ seen
  nodup : names.Nodup
  ordered : names.Pairwise fun a b => seen.idxOf a < seen.idxOf b

/-- The text of a cell: that of a string, the JSON of another value, or nothing without a value. -/
inductive IsCell : Option Json → List Char → Prop where
  | missing : IsCell none []
  | string (s : String) : IsCell (some (.string s)) s.toList
  | value {v : Json} (h : ∀ s, v ≠ .string s) : IsCell (some v) v.compact.toList

theorem IsCell.read {v : Json} {text : List Char} (h : IsCell (some v) text)
    (hv : ∀ s, v ≠ .string s) (hdepth : v.depth ≤ Json.maxDepth) :
    Json.readDocumentBy? Number.ofNumeral? (.ofList text) = some v := by
  cases h with
  | string s => exact absurd rfl (hv s)
  | value =>
    rw [String.ofList_toList]
    exact (Json.readDocumentBy?_ofNumeral? hdepth).1

def HasCells (names : List String) (row : Fields Json) (texts : List (List Char)) : Prop :=
  List.Forall₂ (fun name text => IsCell (Fields.get? row name) text) names texts

theorem pairwise_idxOf_eraseDups (seen : List String) :
    seen.eraseDups.Pairwise fun a b => seen.idxOf a < seen.idxOf b := by
  induction seen using List.reverseRecOn with
  | nil => simp
  | append_singleton xs w ih =>
    have hkept : xs.eraseDups.Pairwise fun a b => (xs ++ [w]).idxOf a < (xs ++ [w]).idxOf b := by
      refine ih.imp_of_mem fun {a b} ha hb hab => ?_
      rwa [List.idxOf_append_of_mem (List.mem_eraseDups.1 ha),
        List.idxOf_append_of_mem (List.mem_eraseDups.1 hb)]
    rw [Fields.eraseDups_snoc]
    by_cases hw : w ∈ xs
    · rwa [if_pos hw]
    · rw [if_neg hw, List.pairwise_append]
      refine ⟨hkept, List.pairwise_singleton _ w, fun a ha b hb => ?_⟩
      have hmem : a ∈ xs := List.mem_eraseDups.1 ha
      rw [List.mem_singleton.1 hb, List.idxOf_append_of_mem hmem, List.idxOf_append_of_notMem hw]
      have hlt := List.idxOf_lt_length_iff.2 hmem
      omega

theorem listsFirstSeen_header (rows : List (Fields Json)) :
    ListsFirstSeen (rows.flatMap Fields.names) (header rows) :=
  ⟨fun _ => List.mem_eraseDups, Fields.nodup_eraseDups _, pairwise_idxOf_eraseDups _⟩

theorem header_ne_nil {rows : List (Fields Json)} (h : ∃ row ∈ rows, row ≠ []) :
    header rows ≠ [] := by
  obtain ⟨row, hrow, hne⟩ := h
  obtain ⟨p, hp⟩ := List.exists_mem_of_ne_nil row hne
  have hseen : p.1 ∈ rows.flatMap Fields.names :=
    List.mem_flatMap.2 ⟨row, hrow, Fields.mem_names hp⟩
  exact List.ne_nil_of_mem (((listsFirstSeen_header rows).mem_iff p.1).2 hseen)

theorem isCell_iff {value? : Option Json} {text : List Char} :
    IsCell value? text ↔ text = cellText value? := by
  constructor
  · intro h
    cases h with
    | missing => rfl
    | string s => rfl
    | @value v h =>
      rw [Json.compact, String.toList_ofList]
      cases v with
      | string s => exact absurd rfl (h s)
      | _ => rfl
  · rintro rfl
    cases value? with
    | none => exact .missing
    | some v =>
      cases hv : v with
      | string s => exact .string s
      | _ => simpa [Json.compact, hv, cellText] using IsCell.value (v := v) (by simp [hv])

theorem forall₂_eq_apply_iff {α β : Type} {f : α → β} {xs : List α} {ys : List β} :
    List.Forall₂ (fun x y => y = f x) xs ys ↔ ys = xs.map f := by
  have hmap := List.forall₂_map_left_iff (R := Eq) (f := f) (l := xs) (u := ys)
  rw [List.forall₂_eq_eq_eq] at hmap
  rw [eq_comm, hmap]
  simp only [eq_comm]

theorem hasCells_iff {names : List String} {row : Fields Json} {texts : List (List Char)} :
    HasCells names row texts ↔ texts = cells names row := by
  simp only [HasCells, isCell_iff]
  exact forall₂_eq_apply_iff

theorem forall₂_hasCells_iff {names : List String} {rows : List (Fields Json)}
    {records : List (List (List Char))} :
    List.Forall₂ (HasCells names) rows records ↔ records = rows.map (cells names) := by
  simp only [← forall₂_eq_apply_iff, ← hasCells_iff]

end RowSelect.Report
