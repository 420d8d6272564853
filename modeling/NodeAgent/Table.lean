/-!
# Tables

A finite map as the list of its entries, in the order in which their keys were first entered. The
agent's tables are small and their order never shows, so what matters is that each operation has
one equation through `get?`: those equations, and the fact that keys do not repeat, are all that
later arguments use.
-/

namespace NodeAgent

/-- A finite map from `κ` to `ν`. -/
structure Table (κ ν : Type) where
  /-- The entries in order of their first insertion. -/
  entries : List (κ × ν) := []
deriving Inhabited

namespace Table

variable {κ ν : Type} [DecidableEq κ]

/-- The table without entries. -/
def empty : Table κ ν := ⟨[]⟩

/-- The value under a key in a list of entries. -/
def find (k : κ) : List (κ × ν) → Option ν
  | [] => none
  | (k', v) :: es => if k' = k then some v else find k es

/-- The value under a key. -/
def get? (t : Table κ ν) (k : κ) : Option ν := find k t.entries

/-- Whether the table has the key. -/
def contains (t : Table κ ν) (k : κ) : Bool := (t.get? k).isSome

/-- The keys in order. -/
def keys (t : Table κ ν) : List κ := t.entries.map (·.1)

/-- The values in order. -/
def values (t : Table κ ν) : List ν := t.entries.map (·.2)

/-- The number of entries. -/
def size (t : Table κ ν) : Nat := t.entries.length

/-- The entries with the value under `k` set; a new key goes to the end. -/
def put (k : κ) (v : ν) : List (κ × ν) → List (κ × ν)
  | [] => [(k, v)]
  | (k', v') :: es => if k' = k then (k, v) :: es else (k', v') :: put k v es

/-- Sets the value under a key. -/
def insert (t : Table κ ν) (k : κ) (v : ν) : Table κ ν := ⟨put k v t.entries⟩

/-- Removes a key. -/
def erase (t : Table κ ν) (k : κ) : Table κ ν := ⟨t.entries.filter fun e ↦ e.1 ≠ k⟩

/-- The table with every value changed. -/
def map {μ : Type} (f : ν → μ) (t : Table κ ν) : Table κ μ := ⟨t.entries.map fun e ↦ (e.1, f e.2)⟩

@[simp] theorem get?_empty (k : κ) : (empty : Table κ ν).get? k = none := rfl

theorem find_put (es : List (κ × ν)) (k j : κ) (v : ν) :
    find j (put k v es) = if k = j then some v else find j es := by
  induction es with
  | nil => simp [put, find]
  | cons e es ih =>
    obtain ⟨k', v'⟩ := e
    by_cases hk : k' = k
    · subst hk
      by_cases hj : k' = j <;> simp [put, find, hj]
    · by_cases hj : k' = j
      · subst hj
        simp [put, find, hk, Ne.symm hk]
      · simp [put, find, hk, hj, ih]

theorem get?_insert (t : Table κ ν) (k j : κ) (v : ν) :
    (t.insert k v).get? j = if k = j then some v else t.get? j := find_put _ _ _ _

theorem find_filter (es : List (κ × ν)) (k j : κ) :
    find j (es.filter fun e ↦ e.1 ≠ k) = if k = j then none else find j es := by
  induction es with
  | nil => simp [find]
  | cons e es ih =>
    obtain ⟨k', v'⟩ := e
    by_cases hk : k' = k
    · subst hk
      by_cases hj : k' = j <;> simp_all [find]
    · by_cases hj : k' = j
      · subst hj
        simp [find, hk, Ne.symm hk]
      · simp [find, hk, hj] at ih ⊢
        exact ih

theorem get?_erase (t : Table κ ν) (k j : κ) :
    (t.erase k).get? j = if k = j then none else t.get? j := find_filter _ _ _

theorem get?_map {μ : Type} (f : ν → μ) (t : Table κ ν) (k : κ) :
    (t.map f).get? k = (t.get? k).map f := by
  obtain ⟨es⟩ := t
  change find k (es.map fun e ↦ (e.1, f e.2)) = (find k es).map f
  induction es with
  | nil => rfl
  | cons e es ih =>
    rw [List.map_cons, find, find, ih]
    split <;> rfl

theorem map_insert {μ : Type} (f : ν → μ) (t : Table κ ν) (k : κ) (v : ν) :
    (t.insert k v).map f = (t.map f).insert k (f v) := by
  obtain ⟨es⟩ := t
  refine congrArg Table.mk ?_
  change (put k v es).map (fun e ↦ (e.1, f e.2)) = put k (f v) (es.map fun e ↦ (e.1, f e.2))
  induction es with
  | nil => rfl
  | cons e es ih =>
    by_cases hk : e.1 = k
    · rw [put, if_pos hk, List.map_cons, List.map_cons, put, if_pos hk]
    · rw [put, if_neg hk, List.map_cons, List.map_cons, put, if_neg hk, ih]

theorem map_erase {μ : Type} (f : ν → μ) (t : Table κ ν) (k : κ) :
    (t.erase k).map f = (t.map f).erase k := by
  refine congrArg Table.mk ?_
  change _ = List.filter _ (t.entries.map fun e ↦ (e.1, f e.2))
  rw [List.filter_map]
  rfl

theorem entries_eq_nil {t : Table κ ν} (h : ∀ k, t.get? k = none) : t.entries = [] := by
  obtain ⟨es⟩ := t
  cases es with
  | nil => rfl
  | cons e es =>
    have hfirst := h e.1
    rw [get?, find, if_pos rfl] at hfirst
    cases hfirst

/-! ## Keys that do not repeat

An entry that is in the list need not be the one that `get?` finds, unless no key repeats. Neither
setting nor removing a key makes one repeat. -/

theorem mem_of_find {es : List (κ × ν)} {k : κ} {v : ν} (h : find k es = some v) : (k, v) ∈ es := by
  induction es with
  | nil => simp [find] at h
  | cons e es ih =>
    obtain ⟨k', v'⟩ := e
    by_cases hk : k' = k
    · subst hk
      rw [find, if_pos rfl, Option.some.injEq] at h
      rw [h]
      exact List.mem_cons_self
    · rw [find, if_neg hk] at h
      exact List.mem_cons_of_mem _ (ih h)

theorem find_of_mem {es : List (κ × ν)} (hes : (es.map (·.1)).Nodup) {k : κ} {v : ν}
    (h : (k, v) ∈ es) : find k es = some v := by
  induction es with
  | nil => simp at h
  | cons e es ih =>
    obtain ⟨k', v'⟩ := e
    rw [List.map_cons, List.nodup_cons] at hes
    rcases List.mem_cons.mp h with heq | hmem
    · obtain ⟨rfl, rfl⟩ := Prod.mk.inj heq
      rw [find, if_pos rfl]
    · have hk : k' ≠ k := by
        rintro rfl
        exact hes.1 (List.mem_map.mpr ⟨_, hmem, rfl⟩)
      rw [find, if_neg hk]
      exact ih hes.2 hmem

theorem mem_values_iff {t : Table κ ν} (ht : t.keys.Nodup) {v : ν} :
    v ∈ t.values ↔ ∃ k, t.get? k = some v := by
  constructor
  · intro h
    obtain ⟨⟨k, v⟩, hmem, rfl⟩ := List.mem_map.mp h
    exact ⟨k, find_of_mem ht hmem⟩
  · rintro ⟨k, hk⟩
    exact List.mem_map.mpr ⟨(k, v), mem_of_find hk, rfl⟩

theorem mem_keys_iff {t : Table κ ν} {k : κ} : k ∈ t.keys ↔ t.get? k ≠ none := by
  obtain ⟨es⟩ := t
  change k ∈ es.map (·.1) ↔ find k es ≠ none
  induction es with
  | nil => simp [find]
  | cons e es ih =>
    obtain ⟨k', v'⟩ := e
    rw [List.map_cons, List.mem_cons, ih, find]
    by_cases hk : k' = k
    · simp [hk]
    · simp [hk, Ne.symm hk]

theorem mem_map_fst_put {es : List (κ × ν)} {k j : κ} {v : ν} :
    j ∈ (put k v es).map (·.1) ↔ j = k ∨ j ∈ es.map (·.1) := by
  induction es with
  | nil => simp [put]
  | cons e es ih =>
    obtain ⟨k', v'⟩ := e
    by_cases hk : k' = k
    · subst hk
      simp [put]
    · rw [put, if_neg hk, List.map_cons, List.map_cons, List.mem_cons, List.mem_cons, ih]
      exact or_left_comm

/-- Setting a key changes nothing for whom the key means nothing. -/
theorem filterMap_keys_insert {β : Type} {f : κ → Option β} {k : κ} (hk : f k = none)
    (t : Table κ ν) (v : ν) : (t.insert k v).keys.filterMap f = t.keys.filterMap f := by
  obtain ⟨es⟩ := t
  change ((put k v es).map (·.1)).filterMap f = (es.map (·.1)).filterMap f
  induction es with
  | nil => rw [put, List.map_singleton, List.filterMap_cons_none hk, List.map_nil]
  | cons e es ih =>
    obtain ⟨k', v'⟩ := e
    by_cases heq : k' = k
    · rw [put, if_pos heq, List.map_cons, List.map_cons, heq]
    · rw [put, if_neg heq, List.map_cons, List.map_cons, List.filterMap_cons, List.filterMap_cons,
        ih]

theorem nodup_keys_insert {t : Table κ ν} (ht : t.keys.Nodup) (k : κ) (v : ν) :
    (t.insert k v).keys.Nodup := by
  obtain ⟨es⟩ := t
  change ((put k v es).map (·.1)).Nodup
  change (es.map (·.1)).Nodup at ht
  induction es with
  | nil => simp [put]
  | cons e es ih =>
    obtain ⟨k', v'⟩ := e
    rw [List.map_cons, List.nodup_cons] at ht
    by_cases hk : k' = k
    · subst hk
      rw [put, if_pos rfl, List.map_cons, List.nodup_cons]
      exact ht
    · rw [put, if_neg hk, List.map_cons, List.nodup_cons]
      refine ⟨fun hmem ↦ ?_, ih ht.2⟩
      rcases mem_map_fst_put.mp hmem with h | h
      · exact hk h
      · exact ht.1 h

theorem size_insert_le (t : Table κ ν) (k : κ) (v : ν) : (t.insert k v).size ≤ t.size + 1 := by
  obtain ⟨es⟩ := t
  change (put k v es).length ≤ es.length + 1
  induction es with
  | nil => exact Nat.le_refl _
  | cons e es ih =>
    rw [put]
    split
    · exact Nat.le_succ _
    · exact Nat.succ_le_succ ih

theorem nodup_keys_erase {t : Table κ ν} (ht : t.keys.Nodup) (k : κ) :
    (t.erase k).keys.Nodup := by
  have hsub : ((t.entries.filter fun e ↦ e.1 ≠ k).map (·.1)).Sublist (t.entries.map (·.1)) :=
    List.filter_sublist.map _
  exact hsub.nodup ht

end Table

end NodeAgent
