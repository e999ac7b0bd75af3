import RowSelect.Proofs.ScalarOrder

/-!
The order of strings is the order of their bytes: UTF-8 puts a character of a higher code point behind
every character of a lower one, whatever the numbers of their bytes and whatever follows them.
-/

set_option autoImplicit false

namespace RowSelect

namespace Text

def utf8Bytes (s : String) : List UInt8 := s.toUTF8.data.toList

theorem utf8Bytes_eq_flatMap (s : String) :
    utf8Bytes s = s.toList.flatMap String.utf8EncodeChar := by
  obtain ⟨cs, rfl⟩ : ∃ cs, s = String.ofList cs := ⟨s.toList, by simp⟩
  rw [utf8Bytes, String.toUTF8_eq_toByteArray, String.toByteArray_ofList, List.utf8Encode,
    List.toList_data_toByteArray, String.toList_ofList]

theorem compare_cons_eq_lt {a b : Nat} {xs ys : List UInt8} (ha : a < 256) (hb : b < 256)
    (hle : a ≤ b) (h : a = b → compare xs ys = .lt) :
    compare (UInt8.ofNat a :: xs) (UInt8.ofNat b :: ys) = .lt := by
  rw [List.compare_cons_cons, Ordering.then_eq_lt]
  obtain hlt | rfl := Nat.lt_or_eq_of_le hle
  · left
    have hbytes : UInt8.ofNat a < UInt8.ofNat b := by
      rw [UInt8.lt_iff_toNat_lt, UInt8.toNat_ofNat_of_lt' ha, UInt8.toNat_ofNat_of_lt' hb]
      exact hlt
    exact Std.compare_eq_lt.2 hbytes
  · exact .inr ⟨Std.ReflOrd.compare_self, h rfl⟩

theorem compare_utf8EncodeChar_eq_lt {c d : Char} (h : c < d) (xs ys : List UInt8) :
    compare (String.utf8EncodeChar c ++ xs) (String.utf8EncodeChar d ++ ys) = .lt := by
  have hlt : c.val.toNat < d.val.toNat := h
  have hmax : d.val.toNat < 0x110000 := by
    rcases d.valid with hlow | ⟨-, hhigh⟩
    · exact Nat.lt_trans hlow (by decide)
    · exact hhigh
  simp only [String.utf8EncodeChar]
  generalize c.val.toNat = m at hlt ⊢
  generalize d.val.toNat = n at hlt hmax ⊢
  -- where all bytes are equal, the code points are
  split_ifs <;> simp only [List.cons_append, List.nil_append] <;>
    repeat' first
      | omega
      | refine compare_cons_eq_lt (by omega) (by omega) (by omega) fun hequal => ?_

theorem compare_append_left (zs xs ys : List UInt8) :
    compare (zs ++ xs) (zs ++ ys) = compare xs ys := by
  induction zs with
  | nil => rfl
  | cons z zs ih =>
    rw [List.cons_append, List.cons_append, List.compare_cons_cons, Std.ReflOrd.compare_self, ih]
    rfl

theorem compare_flatMap_eq_lt {cs ds : List Char} (h : cs < ds) :
    compare (cs.flatMap String.utf8EncodeChar) (ds.flatMap String.utf8EncodeChar) = .lt := by
  induction h with
  | @nil d ds =>
    obtain ⟨b, bs, hbytes⟩ := List.exists_cons_of_ne_nil (String.utf8EncodeChar_ne_nil (c := d))
    rw [List.flatMap_cons, hbytes]
    rfl
  | @rel c cs d ds hcd => exact compare_utf8EncodeChar_eq_lt hcd _ _
  | @cons c cs ds _ ih =>
    rw [List.flatMap_cons, List.flatMap_cons, compare_append_left]
    exact ih

theorem compare_utf8Bytes_eq_lt {s t : String} (h : s < t) :
    compare (utf8Bytes s) (utf8Bytes t) = .lt := by
  rw [utf8Bytes_eq_flatMap, utf8Bytes_eq_flatMap]
  exact compare_flatMap_eq_lt h

theorem compare_eq_lt_of_lt {s t : String} (h : s < t) : compare s t = .lt := by
  change compareOfLessAndEq s t = .lt
  rw [compareOfLessAndEq, if_pos h]

theorem compare_utf8Bytes (s t : String) : compare (utf8Bytes s) (utf8Bytes t) = compare s t := by
  by_cases hlt : s < t
  · rw [compare_utf8Bytes_eq_lt hlt, compare_eq_lt_of_lt hlt]
  · by_cases hgt : t < s
    · rw [Std.OrientedOrd.eq_swap, compare_utf8Bytes_eq_lt hgt,
        Std.OrientedOrd.eq_swap (a := s), compare_eq_lt_of_lt hgt]
    · obtain rfl := String.le_antisymm (String.not_lt.1 hgt) (String.not_lt.1 hlt)
      rw [Std.ReflOrd.compare_self, Std.ReflOrd.compare_self]

end Text

namespace Json

/-- Two values have an order exactly if they are scalars of one kind. Integers of 64 bits, signed or
not, are in their mathematical order and strings in the order of their bytes. -/
theorem compare?_scalars :
    (∀ a b : Json, (a.compare? b).isSome = true ↔ a.SameKind b) ∧
    (∀ i j hi hj, (Json.number (.integer i hi)).compare? (.number (.integer j hj)) =
      some (compare i j)) ∧
    ∀ s t : String, (Json.string s).compare? (.string t) =
      some (compare (Text.utf8Bytes s) (Text.utf8Bytes t)) := by
  refine ⟨fun a b => isSome_compare?_iff, fun i j hi hj => ?_, fun s t => ?_⟩
  · exact Number.compare?_integer
  · rw [Text.compare_utf8Bytes]
    rfl

theorem compare?_scalars_bounds :
    (Json.number (.integer (-0x8000000000000000) (by decide))).compare?
      (.number (.integer 0xFFFFFFFFFFFFFFFF (by decide))) = some .lt ∧
    (Json.number (.integer 0x8000000000000000 (by decide))).compare?
      (.number (.integer 0x7FFFFFFFFFFFFFFF (by decide))) = some .gt ∧
    (Json.string "x\uFFFF").compare? (.string "x😀") =
      some (compare (Text.utf8Bytes "x\uFFFF") (Text.utf8Bytes "x😀")) := by
  obtain ⟨-, hinteger, hstring⟩ := compare?_scalars
  refine ⟨?_, ?_, hstring _ _⟩
  · rw [hinteger]
    decide
  · rw [hinteger]
    decide

end Json

end RowSelect
