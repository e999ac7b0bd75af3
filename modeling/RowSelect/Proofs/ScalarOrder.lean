import RowSelect.Proofs.NumberOrder

/-!
Which JSON values have an order, and that the order does not depend on the side a value stands on.
-/

set_option autoImplicit false

namespace RowSelect

namespace Number

/-- Two numbers are compared through two integers, whichever of them comes first. -/
theorem exists_compare?_eq (a b : Number) :
    ∃ k l : Int, a.compare? b = some (compare k l) ∧ b.compare? a = some (compare l k) := by
  cases a with
  | real x => exact ⟨_, _, compare?_real_left x b, compare?_real_right b x⟩
  | integer i hi =>
    cases b with
    | real y => exact ⟨_, _, compare?_real_right _ y, compare?_real_left y _⟩
    | integer j hj => exact ⟨i, j, compare?_integer, compare?_integer⟩

end Number

namespace Json

inductive SameKind : Json → Json → Prop where
  | null : SameKind .null .null
  | bool (x y : Bool) : SameKind (.bool x) (.bool y)
  | number (a b : Number) : SameKind (.number a) (.number b)
  | string (s t : String) : SameKind (.string s) (.string t)

theorem isSome_compare?_iff {a b : Json} : (a.compare? b).isSome = true ↔ a.SameKind b := by
  constructor
  · intro h
    unfold compare? at h
    split at h
    · exact .number ..
    · exact .string ..
    · exact .bool ..
    · exact .null
    · cases h
  · intro h
    cases h with
    | number a b =>
      obtain ⟨k, l, hab, -⟩ := a.exists_compare?_eq b
      simp [compare?, hab]
    | _ => rfl

theorem compare?_swap (a b : Json) : b.compare? a = (a.compare? b).map Ordering.swap := by
  cases a with
  | number x =>
    cases b with
    | number y =>
      obtain ⟨k, l, hxy, hyx⟩ := x.exists_compare?_eq y
      simp [compare?, hxy, hyx, Int.compare_swap]
    | _ => rfl
  | string s =>
    cases b with
    | string t => simpa [compare?] using Std.OrientedOrd.eq_swap
    | _ => rfl
  | bool x =>
    cases b with
    | bool y => cases x <;> cases y <;> rfl
    | _ => rfl
  | _ => cases b <;> rfl

end Json

end RowSelect
