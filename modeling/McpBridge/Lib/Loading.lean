import McpBridge.Lib.Json
import McpBridge.Lib.Map
/-!
# Loading records

A loop over a list reads each element into a record, or passes it over, and adds
the record to a map under its key. Reading may throw, which ends the loop. It
completes iff no element throws (`loadInto_ok_iff`), and then a key has the last
record that was read for it (`loadInto_exact_iff`). `keptRecords` are the records
of the elements that can be read, whatever the others do. `readRecord` is the
reading of an element of a JSON array.
-/

namespace McpBridge.Lib

variable {A E K V : Type}

/-- What reading an element gives where it does not throw. -/
def readable (read : A → Except E (Option V)) (a : A) : Option V := (read a).toOption.join

def keptRecords (read : A → Except E (Option V)) (l : List A) : List V := l.filterMap (readable read)

/-- The last record under a key. -/
def lastWith [DecidableEq K] (key : V → K) (k : K) (l : List V) : Option V := (l.filter fun v => key v = k).getLast?

theorem mem_lastWith [DecidableEq K] {key : V → K} {k : K} {l : List V} {v : V} (h : lastWith key k l = some v) :
    v ∈ l ∧ key v = k := by
  have hm := List.mem_of_getLast? h
  simpa using hm

theorem lastWith_eq_none [DecidableEq K] {key : V → K} {k : K} {l : List V} :
    lastWith key k l = none ↔ ∀ v ∈ l, key v ≠ k := by
  simp [lastWith]

theorem lastWith_cons [DecidableEq K] (key : V → K) (k : K) (v : V) (l : List V) :
    lastWith key k (v :: l) = (lastWith key k l).or (if key v = k then some v else none) := by
  unfold lastWith
  rw [List.filter_cons]
  by_cases hk : key v = k
  · rw [if_pos (by simpa using hk), if_pos hk, List.getLast?_cons]
    rcases (l.filter fun v => key v = k).getLast? with _ | u <;> rfl
  · rw [if_neg (by simpa using hk), if_neg hk, Option.or_none]

section
variable [DecidableEq K] (read : A → Except E (Option V)) (key : V → K)

/-- The map with a record added, if there is one. -/
def addRecord (m : Map K V) : Option V → Map K V
  | none => m
  | some v => m.insert (key v) v

theorem lookup_addRecord (m : Map K V) (o : Option V) (k : K) :
    (addRecord key m o).lookup k = (o.filter fun v => key v = k).or (m.lookup k) := by
  cases o with
  | none => rfl
  | some v =>
    by_cases hk : k = key v
    · simp [addRecord, Option.filter, hk]
    · have hk' : key v ≠ k := Ne.symm hk
      simp [addRecord, Option.filter, hk, hk']

def loadInto : List A → Map K V → Except E (Map K V)
  | [], m => .ok m
  | a :: l, m =>
    match read a with
    | .error e => .error e
    | .ok o => loadInto l (addRecord key m o)

variable {read}

theorem loadInto_ok {l : List A} (h : ∀ a ∈ l, ∃ o, read a = .ok o) (m : Map K V) :
    ∃ m', loadInto read key l m = .ok m' ∧
      ∀ k, m'.lookup k = (lastWith key k (keptRecords read l)).or (m.lookup k) := by
  induction l generalizing m with
  | nil => exact ⟨m, rfl, fun k => rfl⟩
  | cons a l ih =>
    obtain ⟨o, ho⟩ := h a List.mem_cons_self
    obtain ⟨m', hm, hl⟩ := ih (fun b hb => h b (List.mem_cons_of_mem _ hb)) (addRecord key m o)
    refine ⟨m', by rw [loadInto, ho]; exact hm, fun k => ?_⟩
    have hread : readable read a = o := by simp [readable, ho, Except.toOption]
    rw [hl k, lookup_addRecord, keptRecords, keptRecords, List.filterMap_cons, hread]
    cases o with
    | none => rfl
    | some v =>
      rw [lastWith_cons, Option.or_assoc]
      congr 2
      simp [Option.filter]

theorem loadInto_ok_iff {l : List A} {m : Map K V} :
    (∃ m', loadInto read key l m = .ok m') ↔ ∀ a ∈ l, ∃ o, read a = .ok o := by
  constructor
  · rintro ⟨m', hm⟩
    induction l generalizing m with
    | nil => simp
    | cons a l ih =>
      rcases ho : read a with e | o
      · rw [loadInto, ho] at hm
        cases hm
      · rw [loadInto, ho] at hm
        intro b hb
        rcases List.mem_cons.1 hb with rfl | hb
        · exact ⟨o, ho⟩
        · exact ih hm b hb
  · intro h
    obtain ⟨m', hm, -⟩ := loadInto_ok key h m
    exact ⟨m', hm⟩

/-- The loop completes with the last record under each key iff no element throws. -/
theorem loadInto_exact_iff {l : List A} :
    (∃ m' : Map K V, loadInto read key l ∅ = .ok m' ∧ ∀ k, m'.lookup k = lastWith key k (keptRecords read l)) ↔
      ∀ a ∈ l, ∃ o, read a = .ok o := by
  constructor
  · rintro ⟨m', hm, -⟩
    exact (loadInto_ok_iff key).1 ⟨m', hm⟩
  · intro h
    obtain ⟨m', hm, hl⟩ := loadInto_ok key h ∅
    exact ⟨m', hm, fun k => by rw [hl k, AList.lookup_empty, Option.or_none]⟩

/-- The values of a map that know their keys, read back one after the other. -/
theorem loadInto_values {m : Map K V} (hkey : ∀ k v, m.lookup k = some v → key v = k) {write : V → A}
    (hread : ∀ v ∈ m.values, read (write v) = .ok (some v)) :
    ∃ m' : Map K V, loadInto read key (m.values.map write) ∅ = .ok m' ∧ ∀ k, m'.lookup k = m.lookup k := by
  have hok : ∀ a ∈ m.values.map write, ∃ o, read a = .ok o := by
    intro a ha
    obtain ⟨v, hv, rfl⟩ := List.mem_map.1 ha
    exact ⟨_, hread v hv⟩
  have hkept : keptRecords read (m.values.map write) = m.values := by
    rw [keptRecords, List.filterMap_map]
    refine (List.filterMap_congr fun v hv => ?_).trans List.filterMap_some
    simp [readable, hread v hv, Except.toOption]
  obtain ⟨m', hm, hl⟩ := (loadInto_exact_iff key).2 hok
  refine ⟨m', hm, fun k => ?_⟩
  rw [hl k, hkept]
  cases hlast : lastWith key k m.values with
  | none =>
    rw [lastWith_eq_none] at hlast
    refine (Option.eq_none_iff_forall_ne_some.2 fun v hv => ?_).symm
    exact hlast v (Map.mem_values.2 ⟨k, Map.mem_entries.2 hv⟩) (hkey k v hv)
  | some v =>
    obtain ⟨hv, hk⟩ := mem_lastWith hlast
    rw [← hk]
    exact ((Map.mem_values_of_key key hkey).1 hv).symm

end

/-! ## Arrays of JSON objects -/

section
variable [DecidableEq K] (ofJson : Json → Except JsonError V) (valid : V → Bool)

/-- What is not an object, or makes no valid record, is passed over. -/
def readRecord (j : Json) : Except JsonError (Option V) :=
  if !j.isObject then .ok none else (ofJson j).map fun v => if valid v then some v else none

theorem readRecord_ok {j : Json} {v : V} (hobj : j.isObject = true) (hj : ofJson j = .ok v) (hv : valid v = true) :
    readRecord ofJson valid j = .ok (some v) := by
  simp [readRecord, hobj, hj, hv, Except.map]

theorem readRecord_ok_iff {j : Json} : (∃ o, readRecord ofJson valid j = .ok o) ↔
    (j.isObject = true → ∃ v, ofJson j = .ok v) := by
  unfold readRecord
  cases j.isObject with
  | false => simp
  | true =>
    cases ofJson j with
    | error e => simp [Except.map]
    | ok v => simp [Except.map]

theorem readRecord_some {ofJson : Json → Except JsonError V} {valid : V → Bool} {j : Json} {v : V}
    (h : readRecord ofJson valid j = .ok (some v)) : j.isObject = true ∧ ofJson j = .ok v ∧ valid v = true := by
  unfold readRecord at h
  cases hobj : j.isObject with
  | false =>
    rw [hobj] at h
    cases h
  | true =>
    cases hj : ofJson j with
    | error e =>
      rw [hobj, hj] at h
      cases h
    | ok u =>
      cases hv : valid u with
      | false => simp [hobj, hj, hv, Except.map] at h
      | true =>
        simp only [hobj, hj, hv, Except.map, Bool.not_true, Bool.false_eq_true, if_false, if_true] at h
        cases h
        exact ⟨rfl, rfl, hv⟩

theorem loadInto_readRecord (key : V → K) (j : Json) (l : List Json) (m : Map K V) :
    loadInto (readRecord ofJson valid) key (j :: l) m =
      if !j.isObject then loadInto (readRecord ofJson valid) key l m
      else match ofJson j with
        | .error e => .error e
        | .ok v => loadInto (readRecord ofJson valid) key l (if valid v then m.insert (key v) v else m) := by
  rw [loadInto]
  cases hobj : j.isObject with
  | false => simp [readRecord, hobj, addRecord]
  | true =>
    cases hj : ofJson j with
    | error e => simp [readRecord, hobj, hj, Except.map]
    | ok v => cases hv : valid v <;> simp [readRecord, hobj, hj, hv, Except.map, addRecord]

end

end McpBridge.Lib
