import Mathlib.Data.List.AList
/-!
# Finite maps

A hash map is an `AList`: a list of entries with distinct keys. The order of
the entries stands for the order in which a traversal visits them. Mathlib has
lookup, insertion and removal; this file adds filtering, and the values in
traversal order.
-/

namespace McpBridge.Lib

/-- Finite maps from `K` to `V`. -/
abbrev Map (K V : Type) := AList fun _ : K => V

namespace Map

variable {K V : Type}

/-- The entries `p` accepts. -/
def keep (p : K → V → Bool) (m : Map K V) : Map K V where
  entries := m.entries.filter fun e => p e.1 e.2
  nodupKeys := by
    have h := m.nodupKeys
    rw [List.NodupKeys, List.keys] at h ⊢
    exact h.sublist (List.filter_sublist.map _)

/-- The values, in traversal order. -/
def values (m : Map K V) : List V := m.entries.map (·.2)

theorem mem_values {m : Map K V} {v : V} : v ∈ m.values ↔ ∃ k, (⟨k, v⟩ : Sigma fun _ : K => V) ∈ m.entries := by
  simp only [values, List.mem_map]
  constructor
  · rintro ⟨⟨k, v'⟩, h, rfl⟩
    exact ⟨k, h⟩
  · rintro ⟨k, h⟩
    exact ⟨_, h, rfl⟩

variable [DecidableEq K]

theorem mem_entries {m : Map K V} {k : K} {v : V} :
    (⟨k, v⟩ : Sigma fun _ : K => V) ∈ m.entries ↔ m.lookup k = some v :=
  (AList.mem_lookup_iff (s := m)).symm

theorem lookup_some_mem {m : Map K V} {k : K} {v : V} (h : m.lookup k = some v) : k ∈ m :=
  AList.lookup_isSome.1 (by simp [h])

theorem lookup_keep (p : K → V → Bool) (m : Map K V) (k : K) :
    (keep p m).lookup k = (m.lookup k).filter (p k) := by
  ext v
  simp only [Option.filter_eq_some_iff, ← mem_entries, keep, List.mem_filter]

@[simp] theorem lookup_insert_if (m : Map K V) (k k' : K) (v : V) :
    (m.insert k v).lookup k' = if k' = k then some v else m.lookup k' := by
  by_cases h : k' = k
  · subst h; simp
  · simp [h, AList.lookup_insert_ne h]

@[simp] theorem lookup_erase_if (m : Map K V) (k k' : K) :
    (m.erase k).lookup k' = if k' = k then none else m.lookup k' := by
  by_cases h : k' = k
  · subst h; simp
  · simp [h, AList.lookup_erase_ne h]

theorem lookup_of_erase {m : Map K V} {k k' : K} {v : V} (h : (m.erase k).lookup k' = some v) : m.lookup k' = some v := by
  rw [lookup_erase_if] at h
  split at h
  · cases h
  · exact h

theorem filter_kerase {keep : K → Bool} {k : K} (hk : keep k = false) (l : List (Sigma fun _ : K => V)) :
    (l.kerase k).filter (fun e => keep e.1) = l.filter fun e => keep e.1 := by
  induction l with
  | nil => rfl
  | cons e l ih =>
    by_cases he : k = e.1
    · subst he
      simp [hk]
    · rw [List.kerase_cons_ne he, List.filter_cons, List.filter_cons, ih]

/-- The other entries stay as they are, in their order. -/
theorem filter_insert {keep : K → Bool} {k : K} (hk : keep k = false) (m : Map K V) (v : V) :
    (m.insert k v).entries.filter (fun e => keep e.1) = m.entries.filter fun e => keep e.1 := by
  rw [AList.entries_insert, List.filter_cons, if_neg (by simp [hk]), filter_kerase hk]

@[simp] theorem lookup_singleton (k k' : K) (v : V) :
    AList.lookup k' (AList.singleton k v : Map K V) = if k' = k then some v else none := by
  rw [← AList.insert_empty, lookup_insert_if, AList.lookup_empty]

theorem erase_of_notMem {m : Map K V} {k : K} (h : k ∉ m) : m.erase k = m :=
  AList.ext (List.kerase_of_notMem_keys h)

/-- The values of a map whose values know their keys. -/
theorem mem_values_of_key (key : V → K) {m : Map K V} (h : ∀ k v, m.lookup k = some v → key v = k) {v : V} :
    v ∈ m.values ↔ m.lookup (key v) = some v := by
  rw [mem_values]
  constructor
  · rintro ⟨k, hm⟩
    have hl := mem_entries.1 hm
    rwa [h k v hl]
  · intro hl
    exact ⟨_, mem_entries.2 hl⟩

theorem nodup_map_values (key : V → K) {m : Map K V} (h : ∀ k v, m.lookup k = some v → key v = k) :
    (m.values.map key).Nodup := by
  have hk : m.values.map key = m.entries.map Sigma.fst := by
    rw [values, List.map_map]
    refine List.map_congr_left fun e he => ?_
    exact h e.1 e.2 (mem_entries.1 he)
  rw [hk]
  exact m.nodupKeys

/-- Adding values with distinct keys one after the other. -/
theorem lookup_foldl_insert (key : V → K) {l : List V} (hn : (l.map key).Nodup) (m : Map K V) (k : K) (v : V) :
    (l.foldl (fun m v => m.insert (key v) v) m).lookup k = some v ↔
      (v ∈ l ∧ key v = k) ∨ ((∀ u ∈ l, key u ≠ k) ∧ m.lookup k = some v) := by
  induction l generalizing m with
  | nil => simp
  | cons u l ih =>
    obtain ⟨hu, hn⟩ := List.nodup_cons.1 hn
    simp only [List.foldl_cons, ih hn, lookup_insert_if, List.mem_cons, forall_eq_or_imp]
    by_cases hk : k = key u
    · subst hk
      have hne : ∀ w ∈ l, key w ≠ key u := fun w hw he => hu (he ▸ List.mem_map_of_mem hw)
      constructor
      · rintro (⟨hv, he⟩ | ⟨-, he⟩)
        · exact .inl ⟨.inr hv, he⟩
        · simp only [if_true, Option.some.injEq] at he
          exact .inl ⟨.inl he.symm, by rw [he]⟩
      · rintro (⟨rfl | hv, he⟩ | ⟨⟨hne', -⟩, -⟩)
        · exact .inr ⟨hne, by simp⟩
        · exact absurd he (hne v hv)
        · exact absurd rfl hne'
    · have hk' : key u ≠ k := Ne.symm hk
      constructor
      · rintro (⟨hv, he⟩ | ⟨hl, he⟩)
        · exact .inl ⟨.inr hv, he⟩
        · exact .inr ⟨⟨hk', hl⟩, by simpa [hk] using he⟩
      · rintro (⟨rfl | hv, he⟩ | ⟨⟨-, hl⟩, he⟩)
        · exact absurd he hk'
        · exact .inl ⟨hv, he⟩
        · exact .inr ⟨hl, by simpa [hk] using he⟩

/-- Erasing a key that was just added gives the map back. -/
theorem erase_insert_of_notMem {m : Map K V} {k : K} {v : V} (h : k ∉ m) : (m.insert k v).erase k = m := by
  apply AList.ext
  show List.kerase k (m.insert k v).entries = m.entries
  rw [AList.entries_insert_of_notMem h]
  exact List.kerase_cons_eq rfl

end Map

end McpBridge.Lib
