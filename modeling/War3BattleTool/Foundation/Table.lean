import Mathlib.Algebra.GroupWithZero.Nat
import Mathlib.Algebra.Order.BigOperators.Group.List
import Mathlib.Data.List.AList

set_option autoImplicit false

/-!
# Finite maps with in-place updates and weighted totals

A `Table` is Mathlib's association list without duplicate keys, at a constant
value type and under the vocabulary of a hash map.  Besides lookup, insertion
and removal it has what a program does to a map through a mutable reference
(`modify`), the removal of all entries that fail a test (`retain`), and the sum
of a weight over the values (`total`), with one law for each pair of an update
and an observation.
-/

namespace War3BattleTool.Foundation

/-- A finite map from `κ` to `ν`. -/
def Table (κ ν : Type) : Type := AList fun _ : κ => ν

namespace Table

variable {κ ν μ : Type}

/-- The map without entries. -/
def empty : Table κ ν := (∅ : AList fun _ : κ => ν)

/-- The values, in table order. -/
def values (t : Table κ ν) : List ν := t.entries.map (·.2)

/-- Number of entries. -/
def size (t : Table κ ν) : Nat := t.values.length

/-- The sum of a weight over the values. -/
def total (weight : ν → Nat) (t : Table κ ν) : Nat := (t.values.map weight).sum

/-- The number of values that pass the test. -/
def count (test : ν → Bool) (t : Table κ ν) : Nat := t.values.countP test

/-- Keep the entries that pass the test. -/
def retain (keep : κ → ν → Bool) (t : Table κ ν) : Table κ ν where
  entries := t.entries.filter fun e => keep e.1 e.2
  nodupKeys := List.Nodup.sublist (List.filter_sublist.map _) t.nodupKeys

/-- Replace every value where it stands. -/
def mapValues (f : κ → ν → μ) (t : Table κ ν) : Table κ μ where
  entries := t.entries.map fun e => ⟨e.1, f e.1 e.2⟩
  nodupKeys := by
    have hkeys : (t.entries.map fun e => (⟨e.1, f e.1 e.2⟩ : Σ _ : κ, μ)).keys =
        t.entries.keys := by
      simp [List.keys, Function.comp_def]
    rw [List.NodupKeys, hkeys]
    exact t.nodupKeys

variable [DecidableEq κ]

/-- The value stored under a key. -/
def get? (t : Table κ ν) (k : κ) : Option ν := AList.lookup k t

/-- Store a value under a key, replacing what was there. -/
def insert (t : Table κ ν) (k : κ) (v : ν) : Table κ ν := AList.insert k v t

/-- Remove the entry of a key. -/
def remove (t : Table κ ν) (k : κ) : Table κ ν := AList.erase k t

/-- Apply `f` to the value stored under `k`, if there is one. -/
def modify (t : Table κ ν) (k : κ) (f : ν → ν) : Table κ ν :=
  t.mapValues fun key v => if key = k then f v else v

/-! ## Lookup -/

@[simp] theorem get?_empty (k : κ) : (empty : Table κ ν).get? k = none :=
  AList.lookup_empty k

theorem mem_entries_iff {t : Table κ ν} {k : κ} {v : ν} :
    (⟨k, v⟩ : Σ _ : κ, ν) ∈ t.entries ↔ t.get? k = some v :=
  (AList.mem_lookup_iff (s := t) (a := k) (b := v)).symm

theorem mem_values_iff {t : Table κ ν} {v : ν} :
    v ∈ t.values ↔ ∃ k, t.get? k = some v := by
  simp only [values, List.mem_map]
  constructor
  · rintro ⟨⟨k, w⟩, hmem, rfl⟩
    exact ⟨k, mem_entries_iff.mp hmem⟩
  · rintro ⟨k, hk⟩
    exact ⟨⟨k, v⟩, mem_entries_iff.mpr hk, rfl⟩

/-- Where only the value of one key can pass a test, it is the only one that does. -/
theorem filter_values_of_key {t : Table κ ν} {test : ν → Bool} {k : κ}
    (h : ∀ k' v, t.get? k' = some v → test v = true → k' = k) :
    t.values.filter test = ((t.get? k).filter test).toList := by
  obtain ⟨entries, hnodup⟩ := t
  simp only [get?, AList.lookup, values] at h ⊢
  induction entries with
  | nil => rfl
  | cons e rest ih =>
      obtain ⟨key, value⟩ := e
      obtain ⟨hfresh, hrest⟩ := List.nodupKeys_cons.mp hnodup
      have hlater : ∀ k' v, List.dlookup k' rest = some v →
          List.dlookup k' ((⟨key, value⟩ : Σ _ : κ, ν) :: rest) = some v ∧ k' ≠ key := by
        intro k' v hv
        have hmem : k' ∈ rest.keys := List.mem_keys_of_mem (List.of_mem_dlookup hv)
        have hne : k' ≠ key := fun heq => hfresh (heq ▸ hmem)
        exact ⟨(List.dlookup_cons_ne _ _ hne).trans hv, hne⟩
      have htail := ih hrest fun k' v hv hpass => h k' v (hlater k' v hv).1 hpass
      simp only [List.map_cons]
      by_cases hkey : k = key
      · subst hkey
        -- The rest holds no value for `k`.
        have hnone : List.dlookup k rest = none := by
          cases hv : List.dlookup k rest with
          | none => rfl
          | some v => exact absurd rfl (hlater k v hv).2
        rw [hnone] at htail
        rw [List.dlookup_cons_eq, List.filter_cons, htail]
        cases htest : test value <;> simp [Option.filter, htest]
      · have hfails : test value = false := by
          by_contra hpass
          rw [Bool.not_eq_false] at hpass
          exact hkey (h key value (List.dlookup_cons_eq _ _ _) hpass).symm
        rw [List.dlookup_cons_ne _ _ hkey, List.filter_cons, htail]
        simp [hfails]

theorem get?_insert (t : Table κ ν) (k k' : κ) (v : ν) :
    (t.insert k v).get? k' = if k' = k then some v else t.get? k' := by
  by_cases h : k' = k
  · subst h
    rw [if_pos rfl]
    exact AList.lookup_insert t
  · rw [if_neg h]
    exact AList.lookup_insert_ne h

theorem get?_remove (t : Table κ ν) (k k' : κ) :
    (t.remove k).get? k' = if k' = k then none else t.get? k' := by
  by_cases h : k' = k
  · subst h
    rw [if_pos rfl]
    exact AList.lookup_erase k' t
  · rw [if_neg h]
    exact AList.lookup_erase_ne h

theorem get?_of_remove {t : Table κ ν} {k k' : κ} {v : ν}
    (h : (t.remove k).get? k' = some v) : t.get? k' = some v := by
  rw [get?_remove] at h
  split at h
  · cases h
  · exact h

theorem get?_mapValues (t : Table κ ν) (f : κ → ν → μ) (k : κ) :
    (t.mapValues f).get? k = (t.get? k).map (f k) := by
  obtain ⟨entries, hnodup⟩ := t
  simp only [get?, mapValues, AList.lookup]
  clear hnodup
  induction entries with
  | nil => simp
  | cons e rest ih =>
      obtain ⟨key, value⟩ := e
      by_cases hkey : k = key
      · subst hkey
        simp only [List.map_cons]
        rw [List.dlookup_cons_eq, List.dlookup_cons_eq]
        rfl
      · simp only [List.map_cons]
        rw [List.dlookup_cons_ne _ _ hkey, List.dlookup_cons_ne _ _ hkey, ih]

theorem get?_modify (t : Table κ ν) (k k' : κ) (f : ν → ν) :
    (t.modify k f).get? k' =
      if k' = k then (t.get? k').map f else t.get? k' := by
  rw [modify, get?_mapValues]
  by_cases h : k' = k
  · simp [h]
  · cases t.get? k' <;> simp [h]

theorem get?_retain (t : Table κ ν) (keep : κ → ν → Bool) (k : κ) :
    (t.retain keep).get? k = (t.get? k).filter (keep k) := by
  apply Option.ext
  intro v
  rw [← mem_entries_iff, Option.filter_eq_some_iff, ← mem_entries_iff]
  exact List.mem_filter

/-- A change that leaves the value as it is changes nothing. -/
theorem modify_eq_self {t : Table κ ν} {k : κ} {f : ν → ν}
    (h : ∀ v, t.get? k = some v → f v = v) : t.modify k f = t := by
  apply AList.ext
  have hsame : ∀ e ∈ t.entries,
      (⟨e.1, if e.1 = k then f e.2 else e.2⟩ : Σ _ : κ, ν) = id e := by
    rintro ⟨key, v⟩ hmem
    by_cases hkey : key = k
    · subst hkey
      simp [h v (mem_entries_iff.mp hmem)]
    · simp [hkey]
  exact (List.map_congr_left hsame).trans (List.map_id _)

/-- The second of two changes that overwrite the value is the one that counts. -/
theorem modify_modify (t : Table κ ν) (k : κ) (v w : ν) :
    ((t.modify k fun _ => v).modify k fun _ => w) = t.modify k fun _ => w := by
  apply AList.ext
  simp only [modify, mapValues, List.map_map]
  refine List.map_congr_left fun e _ => ?_
  by_cases hkey : e.1 = k <;> simp [hkey]

theorem modify_of_get?_eq_none {t : Table κ ν} {k : κ} (f : ν → ν)
    (h : t.get? k = none) : t.modify k f = t :=
  modify_eq_self fun v hv => by simp [h] at hv

theorem mapValues_modify (t : Table κ ν) (k : κ) (f : ν → ν) (g : ν → μ) (v : μ)
    (hg : ∀ w, t.get? k = some w → g (f w) = v) :
    ((t.modify k f).mapValues fun _ => g) = (t.mapValues fun _ => g).modify k fun _ => v := by
  apply AList.ext
  simp only [modify, mapValues, List.map_map]
  refine List.map_congr_left fun e he => ?_
  obtain ⟨key, w⟩ := e
  by_cases hkey : key = k
  · subst hkey
    simp [hg w (mem_entries_iff.mp he)]
  · simp [hkey]

theorem mapValues_insert {t : Table κ ν} {k : κ} (g : ν → μ) (v : ν) (h : t.get? k = none) :
    ((t.insert k v).mapValues fun _ => g) = (t.mapValues fun _ => g).insert k (g v) := by
  apply AList.ext
  have hmapped : (t.mapValues fun _ => g).get? k = none := by
    rw [get?_mapValues, h]
    rfl
  have hleft := AList.entries_insert_of_notMem (b := v) (AList.lookup_eq_none.mp h)
  have hright :=
    AList.entries_insert_of_notMem (b := g v) (AList.lookup_eq_none.mp hmapped)
  simp only [insert, hright]
  simp only [mapValues, hleft, List.map_cons]

theorem remove_of_get?_eq_none {t : Table κ ν} {k : κ}
    (h : t.get? k = none) : t.remove k = t := by
  apply AList.ext
  exact List.kerase_of_notMem_keys (AList.lookup_eq_none.mp h)

/-! ## Totals and counts -/

theorem total_insert {t : Table κ ν} {k : κ} {v : ν} (weight : ν → Nat)
    (h : t.get? k = none) :
    (t.insert k v).total weight = t.total weight + weight v := by
  have hentries := AList.entries_insert_of_notMem (b := v) (AList.lookup_eq_none.mp h)
  simp only [total, values, insert, hentries, List.map_cons, List.sum_cons]
  omega

theorem total_remove {t : Table κ ν} {k : κ} {v : ν} (weight : ν → Nat)
    (h : t.get? k = some v) :
    (t.remove k).total weight + weight v = t.total weight := by
  have herase : (t.remove k).entries = t.entries.kerase k := rfl
  simp only [total, values, herase]
  replace h : t.entries.dlookup k = some v := h
  clear herase
  generalize t.entries = entries at h ⊢
  induction entries with
  | nil => simp at h
  | cons e rest ih =>
      obtain ⟨key, value⟩ := e
      by_cases hkey : k = key
      · subst hkey
        have hv : value = v := by
          rw [List.dlookup_cons_eq] at h
          exact Option.some.inj h
        subst hv
        have herase : List.kerase k ((⟨k, value⟩ : Σ _ : κ, ν) :: rest) = rest :=
          List.kerase_cons_eq rfl
        simp only [herase, List.map_cons, List.sum_cons]
        omega
      · rw [List.dlookup_cons_ne _ _ hkey] at h
        have htail := ih h
        rw [List.kerase_cons_ne (by exact hkey)]
        simp only [List.map_cons, List.sum_cons]
        omega

theorem total_modify {t : Table κ ν} {k : κ} {v : ν} (weight : ν → Nat)
    (f : ν → ν) (h : t.get? k = some v) :
    (t.modify k f).total weight + weight v = t.total weight + weight (f v) := by
  obtain ⟨entries, hnodup⟩ := t
  simp only [get?, AList.lookup] at h
  simp only [total, values, modify, mapValues, List.map_map, Function.comp_def]
  induction entries with
  | nil => simp at h
  | cons e rest ih =>
      obtain ⟨key, value⟩ := e
      obtain ⟨hfresh, hrest⟩ := List.nodupKeys_cons.mp hnodup
      by_cases hkey : k = key
      · subst hkey
        have hv : value = v := by
          rw [List.dlookup_cons_eq] at h
          exact Option.some.inj h
        subst hv
        -- No later entry has the key `k`, so the tail keeps its weights.
        have htail : rest.map (fun e => weight (if e.1 = k then f e.2 else e.2)) =
            rest.map (fun e => weight e.2) := by
          refine List.map_congr_left fun e he => ?_
          have hne : ¬ e.1 = k := by
            intro heq
            have hkey : e.1 ∈ rest.keys := List.mem_keys_of_mem he
            rw [heq] at hkey
            exact hfresh hkey
          simp [hne]
        simp only [List.map_cons, List.sum_cons, htail, if_true]
        omega
      · rw [List.dlookup_cons_ne _ _ hkey] at h
        have htail := ih hrest h
        have hne : ¬ key = k := fun heq => hkey heq.symm
        simp only [List.map_cons, List.sum_cons, hne, if_false]
        omega

theorem total_congr {t : Table κ ν} {weight weight' : ν → Nat}
    (h : ∀ k v, t.get? k = some v → weight v = weight' v) :
    t.total weight = t.total weight' := by
  unfold total
  congr 1
  refine List.map_congr_left fun v hv => ?_
  obtain ⟨k, hk⟩ := mem_values_iff.mp hv
  exact h k v hk

theorem total_eq_zero {t : Table κ ν} {weight : ν → Nat}
    (h : ∀ k v, t.get? k = some v → weight v = 0) : t.total weight = 0 := by
  rw [total_congr h]
  simp [total]

omit [DecidableEq κ] in
theorem count_eq_total (test : ν → Bool) (t : Table κ ν) :
    t.count test = t.total fun v => (test v).toNat := by
  unfold count total
  induction t.values with
  | nil => rfl
  | cons v vs ih =>
      rw [List.countP_cons, List.map_cons, List.sum_cons, ih]
      cases test v <;> simp [Nat.add_comm]

theorem count_insert {t : Table κ ν} {k : κ} {v : ν} (test : ν → Bool)
    (h : t.get? k = none) :
    (t.insert k v).count test = t.count test + (test v).toNat := by
  simpa only [count_eq_total] using total_insert (fun v => (test v).toNat) h

theorem count_remove {t : Table κ ν} {k : κ} {v : ν} (test : ν → Bool)
    (h : t.get? k = some v) :
    (t.remove k).count test + (test v).toNat = t.count test := by
  simpa only [count_eq_total] using total_remove (fun v => (test v).toNat) h

theorem count_modify {t : Table κ ν} {k : κ} {v : ν} (test : ν → Bool) (f : ν → ν)
    (h : t.get? k = some v) :
    (t.modify k f).count test + (test v).toNat = t.count test + (test (f v)).toNat := by
  simpa only [count_eq_total] using total_modify (fun v => (test v).toNat) f h

theorem count_eq_zero {t : Table κ ν} {test : ν → Bool}
    (h : ∀ k v, t.get? k = some v → test v = false) : t.count test = 0 := by
  rw [count_eq_total]
  exact total_eq_zero fun k v hk => by simp [h k v hk]

/-- A change that keeps the outcome of a test keeps the count. -/
theorem count_modify_of_same {t : Table κ ν} {test : ν → Bool} (k : κ) {f : ν → ν}
    (h : ∀ v, test (f v) = test v) : (t.modify k f).count test = t.count test := by
  cases hk : t.get? k with
  | none => rw [modify_of_get?_eq_none f hk]
  | some v =>
      have hcount := count_modify test f hk
      rw [h v] at hcount
      omega

/-! ## Sizes -/

theorem size_insert_le (t : Table κ ν) (k : κ) (v : ν) : (t.insert k v).size ≤ t.size + 1 := by
  have hentries : (t.insert k v).entries = ⟨k, v⟩ :: List.kerase k t.entries :=
    AList.entries_insert ..
  have hle := (List.kerase_sublist k t.entries).length_le
  simp only [size, values, hentries, List.map_cons, List.length_cons, List.length_map]
  omega

theorem size_insert {t : Table κ ν} {k : κ} {v : ν} (h : t.get? k = none) :
    (t.insert k v).size = t.size + 1 := by
  have hentries := AList.entries_insert_of_notMem (b := v) (AList.lookup_eq_none.mp h)
  simp only [size, values, insert, hentries, List.map_cons, List.length_cons]

theorem size_remove_le (t : Table κ ν) (k : κ) : (t.remove k).size ≤ t.size := by
  have hle := (List.kerase_sublist k t.entries).length_le
  simp only [size, values, List.length_map]
  exact hle

@[simp] theorem size_modify (t : Table κ ν) (k : κ) (f : ν → ν) :
    (t.modify k f).size = t.size := by
  simp only [size, values, modify, mapValues, List.length_map]

end Table

end War3BattleTool.Foundation
