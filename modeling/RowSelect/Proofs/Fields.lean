import Mathlib.Data.List.Induction
import RowSelect.Fields

/-!
Named values that agree wherever they share a name. Building a list of them by insertion keeps each
name at its first place, and inserting names that are all new appends.
-/

set_option autoImplicit false

namespace RowSelect.Fields

variable {α β : Type}

theorem names_append (fs more : Fields α) : names (fs ++ more) = names fs ++ names more := by
  simp [names]

theorem isSome_get?_iff {fs : Fields α} {name : String} :
    (get? fs name).isSome ↔ name ∈ names fs := by
  simp [get?, names]

theorem insert_of_not_mem {fs : Fields α} {name : String} {value : α} (h : name ∉ names fs) :
    insert fs name value = fs ++ [(name, value)] := by
  induction fs with
  | nil => rfl
  | cons p rest ih =>
    obtain ⟨n, v⟩ := p
    obtain ⟨hn, hrest⟩ : name ≠ n ∧ name ∉ names rest := by simpa [names] using h
    rw [insert, if_neg (Ne.symm hn), ih hrest, List.cons_append]

theorem insert_of_get? {fs : Fields α} {name : String} {value : α}
    (h : get? fs name = some value) : insert fs name value = fs := by
  induction fs with
  | nil => simp [get?] at h
  | cons p rest ih =>
    obtain ⟨n, v⟩ := p
    by_cases hn : n = name
    · subst n
      have hv : v = value := by simpa [get?] using h
      rw [insert, if_pos rfl, hv]
    · have hrest : get? rest name = some value := by
        rwa [get?, List.lookup_cons, beq_false_of_ne (Ne.symm hn)] at h
      rw [insert, if_neg hn, ih hrest]

theorem extend_append (fs xs ys : Fields α) : extend fs (xs ++ ys) = extend (extend fs xs) ys := by
  simp [extend]

theorem extend_of_disjoint {fs more : Fields α} (hmore : (names more).Nodup)
    (hnew : ∀ name ∈ names more, name ∉ names fs) : extend fs more = fs ++ more := by
  induction more generalizing fs with
  | nil => simp [extend]
  | cons p rest ih =>
    obtain ⟨n, v⟩ := p
    obtain ⟨hn, hrest⟩ := List.nodup_cons.1 hmore
    have hfs : n ∉ names fs := hnew n (by simp [names])
    have hstep : extend fs ((n, v) :: rest) = extend (fs ++ [(n, v)]) rest := by
      rw [← insert_of_not_mem hfs]; rfl
    rw [hstep, ih hrest]
    · simp
    · intro name hname
      have hne : name ≠ n := by
        intro he
        exact hn (he ▸ hname)
      have hold := hnew name (List.mem_cons_of_mem _ hname)
      simpa [names, hne] using hold

theorem mem_names {fs : Fields α} {p : String × α} (h : p ∈ fs) : p.1 ∈ names fs :=
  List.mem_map_of_mem h

theorem get?_eq_some_iff_mem {fs : Fields α} (h : (names fs).Nodup) {name : String} {value : α} :
    get? fs name = some value ↔ (name, value) ∈ fs := by
  induction fs with
  | nil => simp [get?]
  | cons p rest ih =>
    obtain ⟨n, v⟩ := p
    obtain ⟨hn, hrest⟩ := List.nodup_cons.1 h
    by_cases he : name = n
    · subst n
      have hnot : (name, value) ∉ rest := fun hmem => hn (mem_names (p := (name, value)) hmem)
      simp [get?, hnot, eq_comm]
    · rw [get?, List.lookup_cons, beq_false_of_ne he, List.mem_cons]
      simpa [he] using! ih hrest

theorem names_insert (fs : Fields α) (name : String) (value : α) :
    names (insert fs name value) = if name ∈ names fs then names fs else names fs ++ [name] := by
  induction fs with
  | nil => rfl
  | cons p rest ih =>
    obtain ⟨n, v⟩ := p
    by_cases hn : n = name
    · simp [insert, names, hn]
    · have hrest : names (insert ((n, v) :: rest) name value) =
          n :: names (insert rest name value) := by
        rw [insert, if_neg hn]
        rfl
      rw [hrest, ih]
      by_cases hmem : name ∈ names rest <;> simp_all [names, eq_comm]

theorem nodup_names_insert {fs : Fields α} (h : (names fs).Nodup) (name : String) (value : α) :
    (names (insert fs name value)).Nodup := by
  rw [names_insert]
  by_cases hmem : name ∈ names fs
  · rwa [if_pos hmem]
  · rw [if_neg hmem]
    exact List.nodup_append.2 ⟨h, by simp, by grind⟩

theorem mem_insert_iff {fs : Fields α} (h : (names fs).Nodup) {name : String} {value : α}
    {p : String × α} : p ∈ insert fs name value ↔ p = (name, value) ∨ p ∈ fs ∧ p.1 ≠ name := by
  induction fs with
  | nil => simp [insert]
  | cons q rest ih =>
    obtain ⟨n, v⟩ := q
    obtain ⟨hn, hrest⟩ := List.nodup_cons.1 h
    by_cases he : n = name
    · subst n
      have hne : ∀ q ∈ rest, q.1 ≠ name := fun q hq he => hn (he ▸ mem_names (p := q) hq)
      rw [insert, if_pos rfl]
      grind
    · rw [insert, if_neg he, List.mem_cons, ih hrest]
      grind

theorem ofList_append_singleton (ps : List (String × α)) (name : String) (value : α) :
    ofList (ps ++ [(name, value)]) = insert (ofList ps) name value := by
  rw [ofList, extend_append]
  rfl

theorem nodup_names_ofList (ps : List (String × α)) : (names (ofList ps)).Nodup := by
  induction ps using List.reverseRecOn with
  | nil => exact .nil
  | append_singleton ps p ih =>
    rw [ofList_append_singleton]
    exact nodup_names_insert ih _ _

theorem ofList_of_nodup {ps : List (String × α)} (h : (names ps).Nodup) : ofList ps = ps :=
  extend_of_disjoint h (by simp [names])

theorem mem_ofList_iff {ps : List (String × α)} {name : String} {value : α} :
    (name, value) ∈ ofList ps ↔
      ∃ before after, ps = before ++ (name, value) :: after ∧ name ∉ names after := by
  -- By the last pair: it is the one that counts for its name.
  induction ps using List.reverseRecOn with
  | nil => simp [ofList, extend]
  | append_singleton ps p ih =>
    obtain ⟨n, v⟩ := p
    rw [ofList_append_singleton, mem_insert_iff (nodup_names_ofList ps), ih]
    constructor
    · intro h
      rcases h with h | ⟨⟨before, after, rfl, hafter⟩, hne⟩
      · cases h
        exact ⟨ps, [], rfl, by simp [names]⟩
      · refine ⟨before, after ++ [(n, v)], by simp, ?_⟩
        rw [names_append, List.mem_append, not_or]
        exact ⟨hafter, by simpa [names] using hne⟩
    · intro h
      obtain ⟨before, after, hcut, hafter⟩ := h
      rcases List.eq_nil_or_concat after with rfl | ⟨init, q, rfl⟩
      · exact .inl (List.singleton_inj.1 (List.append_inj' hcut rfl).2).symm
      · right
        rw [List.concat_eq_append, ← List.cons_append, ← List.append_assoc] at hcut
        obtain ⟨rfl, hq⟩ := List.append_inj' hcut rfl
        obtain rfl := List.singleton_inj.1 hq
        rw [List.concat_eq_append, names_append, List.mem_append, not_or] at hafter
        exact ⟨⟨before, init, rfl, hafter.1⟩, by simpa [names] using hafter.2⟩

theorem ofList_map (f : α → β) (ps : List (String × α)) :
    ofList (ps.map fun p => (p.1, f p.2)) = (ofList ps).map fun p => (p.1, f p.2) := by
  have hinsert : ∀ (fs : Fields α) (name : String) (value : α),
      insert (fs.map fun p => (p.1, f p.2)) name (f value) =
        (insert fs name value).map fun p => (p.1, f p.2) := by
    intro fs name value
    induction fs with
    | nil => rfl
    | cons p rest ih =>
      by_cases hn : p.1 = name <;> simp [insert, hn, ih]
  induction ps using List.reverseRecOn with
  | nil => rfl
  | append_singleton ps p ih =>
    rw [List.map_append, List.map_singleton, ofList_append_singleton, ih, hinsert,
      ofList_append_singleton]

variable (value? : String → Option α)

def valued (ws : List String) : Fields α := ws.filterMap fun w => (value? w).map (w, ·)

theorem valued_append (xs ys : List String) :
    valued value? (xs ++ ys) = valued value? xs ++ valued value? ys := by
  simp [valued]

theorem mem_valued {ws : List String} {w : String} {v : α} :
    (w, v) ∈ valued value? ws ↔ w ∈ ws ∧ value? w = some v := by
  simp only [valued, List.mem_filterMap, Option.map_eq_some_iff, Prod.mk.injEq]
  constructor
  · intro h
    obtain ⟨x, hx, y, hy, rfl, rfl⟩ := h
    exact ⟨hx, hy⟩
  · intro h
    exact ⟨w, h.1, v, h.2, rfl, rfl⟩

theorem mem_names_valued {ws : List String} {w : String} :
    w ∈ names (valued value? ws) ↔ w ∈ ws ∧ (value? w).isSome := by
  simp [names, mem_valued, Option.isSome_iff_exists]

theorem nodup_names_valued {ws : List String} (h : ws.Nodup) :
    (names (valued value? ws)).Nodup := by
  induction ws with
  | nil => exact .nil
  | cons w rest ih =>
    obtain ⟨hw, hrest⟩ := List.nodup_cons.1 h
    cases hv : value? w with
    | none => simpa [valued, hv] using ih hrest
    | some v =>
      have hnot : w ∉ names (valued value? rest) := fun hm =>
        hw ((mem_names_valued value?).1 hm).1
      have hcons : valued value? (w :: rest) = (w, v) :: valued value? rest := by
        simp [valued, hv]
      rw [hcons]
      exact List.nodup_cons.2 ⟨hnot, ih hrest⟩

theorem get?_valued {ws : List String} {w : String} (h : w ∈ ws) :
    get? (valued value? ws) w = value? w := by
  induction ws with
  | nil => simp at h
  | cons x rest ih =>
    by_cases hx : w = x
    · subst x
      cases hv : value? w with
      | none =>
        have hnot : w ∉ names (valued value? (w :: rest)) := by
          simp [mem_names_valued, hv]
        exact List.lookup_eq_none_iff.2 fun p hp => by
          have hne : w ≠ p.1 := by
            intro he
            have hname : p.1 ∈ names (valued value? (w :: rest)) := List.mem_map_of_mem hp
            rw [← he] at hname
            exact hnot hname
          simpa using hne
      | some v => simp [get?, valued, hv]
    · have hmem : w ∈ rest := by simpa [hx] using h
      have hskip : get? (valued value? (x :: rest)) w = get? (valued value? rest) w := by
        cases hv : value? x with
        | none => simp [valued, hv]
        | some v => simp [get?, valued, hv, List.lookup_cons, beq_false_of_ne hx]
      rw [hskip, ih hmem]

theorem eraseDups_snoc (xs : List String) (w : String) :
    (xs ++ [w]).eraseDups = if w ∈ xs then xs.eraseDups else xs.eraseDups ++ [w] := by
  rw [List.eraseDups_append, List.cons_removeAll, List.nil_removeAll]
  by_cases hw : w ∈ xs <;> simp [hw, List.eraseDups_cons]

theorem nodup_eraseDups (ws : List String) : ws.eraseDups.Nodup := by
  induction ws using List.reverseRecOn with
  | nil => simp
  | append_singleton xs w ih =>
    rw [eraseDups_snoc]
    by_cases hw : w ∈ xs
    · rwa [if_pos hw]
    · rw [if_neg hw]
      have hnew : w ∉ xs.eraseDups := mt List.mem_eraseDups.1 hw
      refine List.nodup_append.2 ⟨ih, by simp, ?_⟩
      intro x hx y hy he
      rw [he, List.mem_singleton.1 hy] at hx
      exact hnew hx

theorem ofList_valued (ws : List String) :
    ofList (valued value? ws) = valued value? ws.eraseDups := by
  induction ws using List.reverseRecOn with
  | nil => rfl
  | append_singleton xs w ih =>
    rw [eraseDups_snoc, valued_append, ofList, extend_append, ← ofList, ih]
    cases hv : value? w with
    | none => by_cases hw : w ∈ xs <;> simp [valued, extend, hv, hw]
    | some v =>
      have hone : valued value? [w] = [(w, v)] := by simp [valued, hv]
      rw [hone]
      change insert _ w v = _
      by_cases hw : w ∈ xs
      · rw [if_pos hw]
        exact insert_of_get? (by rw [get?_valued value? (List.mem_eraseDups.2 hw), hv])
      · rw [if_neg hw, valued_append, hone]
        refine insert_of_not_mem fun hm => hw ?_
        exact List.mem_eraseDups.1 ((mem_names_valued value?).1 hm).1

end RowSelect.Fields
