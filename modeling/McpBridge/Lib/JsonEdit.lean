import McpBridge.Lib.JsonStream
/-!
# JSON documents that are edited

A program that reads a document, sets a field of it and writes it back relies on
three things: that setting a field changes no other (`get?_set`), that what it holds
then can be written (`Storable`), and that the library reads what it wrote
(`JsonText.Faithful`). `jsonStrict` is such a library.
-/

namespace McpBridge.Lib

namespace Json

/-! ## Fields -/

theorem field?_insertField (k k' : Str) (v : Json) (l : List (Str × Json)) :
    field? k' (insertField k v l) = if k = k' then some v else field? k' l := by
  induction l with
  | nil => simp [insertField, field?]
  | cons kv l ih =>
    obtain ⟨k₀, v₀⟩ := kv
    simp only [insertField]
    by_cases hk : k = k₀
    · subst hk
      by_cases hk' : k = k' <;> simp [field?, hk']
    · rw [if_neg hk]
      split
      · simp only [field?]
      · simp only [field?, ih]
        by_cases hk' : k = k'
        · subst hk'
          simp [Ne.symm hk]
        · simp [hk']

theorem get?_set {j j' : Json} {k : Str} {v : Json} (h : j.set k v = .ok j') (k' : Str) :
    j'.get? k' = if k = k' then some v else j.get? k' := by
  cases j with
  | obj l =>
    cases h
    exact field?_insertField k k' v l
  | null =>
    cases h
    simp [get?, field?]
  | _ => cases h

/-! ## Order -/

theorem strLt_trans : ∀ {a b c : Str}, strLt a b = true → strLt b c = true → strLt a c = true
  | [], _ :: _, _ :: _, _, _ => rfl
  | a :: s, b :: t, c :: u, hab, hbc => by
    simp only [strLt] at hab hbc ⊢
    by_cases h : a = b
    · subst h
      rw [if_pos rfl] at hab
      by_cases h' : a = c
      · subst h'
        rw [if_pos rfl] at hbc ⊢
        exact strLt_trans hab hbc
      · rw [if_neg h'] at hbc ⊢
        exact hbc
    · rw [if_neg h] at hab
      by_cases h' : b = c
      · subst h'
        rw [if_neg h]
        exact hab
      · rw [if_neg h'] at hbc
        have hlt : a < c := by
          simp only [decide_eq_true_eq] at hab hbc
          exact UInt8.lt_trans hab hbc
        rw [if_neg (UInt8.ne_of_lt hlt)]
        simpa using hlt

theorem strLt_total : ∀ {a b : Str}, a ≠ b → strLt a b = false → strLt b a = true
  | [], [], h, _ => absurd rfl h
  | _ :: _, [], _, _ => rfl
  | a :: s, b :: t, h, hlt => by
    simp only [strLt] at hlt ⊢
    by_cases hab : a = b
    · subst hab
      rw [if_pos rfl] at hlt ⊢
      exact strLt_total (by simpa using h) hlt
    · rw [if_neg hab] at hlt
      rw [if_neg (Ne.symm hab)]
      simp only [decide_eq_false_iff_not, UInt8.not_lt] at hlt
      simpa using UInt8.lt_of_le_of_ne hlt (Ne.symm hab)

theorem mem_insertField {k : Str} {v : Json} {l : List (Str × Json)} {a : Str × Json} (h : a ∈ insertField k v l) :
    a = (k, v) ∨ a ∈ l := by
  induction l with
  | nil => exact .inl (by simpa [insertField] using h)
  | cons kv l ih =>
    simp only [insertField] at h
    split at h
    · rcases List.mem_cons.1 h with h | h
      · exact .inl h
      · exact .inr (List.mem_cons_of_mem _ h)
    · split at h
      · rcases List.mem_cons.1 h with h | h
        · exact .inl h
        · exact .inr h
      · rcases List.mem_cons.1 h with rfl | h
        · exact .inr List.mem_cons_self
        · exact (ih h).imp_right (List.mem_cons_of_mem _)

/-- The keys stay in order. -/
theorem insertField_sorted (k : Str) (v : Json) {l : List (Str × Json)} (h : l.Pairwise fun a b => strLt a.1 b.1 = true) :
    (insertField k v l).Pairwise fun a b => strLt a.1 b.1 = true := by
  induction l with
  | nil => simp [insertField]
  | cons kv l ih =>
    obtain ⟨hkv, hl⟩ := List.pairwise_cons.1 h
    simp only [insertField]
    split
    · next hk => exact List.pairwise_cons.2 ⟨by rw [hk]; exact hkv, hl⟩
    · next hk =>
      split
      · next hlt =>
        refine List.pairwise_cons.2 ⟨fun a ha => ?_, h⟩
        rcases List.mem_cons.1 ha with rfl | ha
        · exact hlt
        · exact strLt_trans hlt (hkv a ha)
      · next hlt =>
        refine List.pairwise_cons.2 ⟨fun a ha => ?_, ih hl⟩
        rcases mem_insertField ha with rfl | ha
        · exact strLt_total hk (by simpa using hlt)
        · exact hkv a ha

/-! ## What can be written -/

/-- Its keys are in order, and its doubles finite. -/
def Storable (j : Json) : Prop := j.ordered = true ∧ j.finite = true

theorem orderedFields_iff {l : List (Str × Json)} : orderedFields l = true ↔ ∀ a ∈ l, a.2.ordered = true := by
  induction l with
  | nil => simp [orderedFields]
  | cons kv l ih => simp [orderedFields, ih]

theorem finiteFields_iff {l : List (Str × Json)} : finiteFields l = true ↔ ∀ a ∈ l, a.2.finite = true := by
  induction l with
  | nil => simp [finiteFields]
  | cons kv l ih => simp [finiteFields, ih]

theorem storable_obj {l : List (Str × Json)} :
    (Json.obj l).Storable ↔ (l.Pairwise fun a b => strLt a.1 b.1 = true) ∧ ∀ a ∈ l, a.2.Storable := by
  simp only [Storable, ordered, finite, Bool.and_eq_true, decide_eq_true_eq, orderedFields_iff, finiteFields_iff]
  constructor
  · rintro ⟨⟨ho, hs⟩, hf⟩
    exact ⟨hs, fun a ha => ⟨ho a ha, hf a ha⟩⟩
  · rintro ⟨hs, ha⟩
    exact ⟨⟨fun a h => (ha a h).1, hs⟩, fun a h => (ha a h).2⟩

theorem storable_str (s : Str) : (Json.str s).Storable := ⟨rfl, rfl⟩

/-- A field of it can be written. -/
theorem Storable.get? {j v : Json} {k : Str} (h : j.Storable) (hv : j.get? k = some v) : v.Storable := by
  cases j with
  | obj l =>
    have hmem : ∃ a ∈ l, a.2 = v := by
      clear h
      simp only [Json.get?] at hv
      induction l with
      | nil => cases hv
      | cons kv l ih =>
        simp only [field?] at hv
        split at hv
        · cases hv
          exact ⟨kv, List.mem_cons_self, rfl⟩
        · obtain ⟨a, ha, heq⟩ := ih hv
          exact ⟨a, List.mem_cons_of_mem _ ha, heq⟩
    obtain ⟨a, ha, rfl⟩ := hmem
    exact (storable_obj.1 h).2 a ha
  | _ => cases hv

/-- With a field set to what can be written, it can be written. -/
theorem Storable.set {j j' v : Json} {k : Str} (h : j.Storable) (hv : v.Storable) (hset : j.set k v = .ok j') : j'.Storable := by
  cases j with
  | obj l =>
    cases hset
    obtain ⟨hs, ha⟩ := storable_obj.1 h
    refine storable_obj.2 ⟨insertField_sorted k v hs, fun a hm => ?_⟩
    rcases mem_insertField hm with rfl | hm
    · exact hv
    · exact ha a hm
  | null =>
    cases hset
    exact storable_obj.2 ⟨List.pairwise_singleton _ _, by simpa using hv⟩
  | _ => cases hset

end Json

/-! ## Libraries that read what they wrote -/

/-- What the library parses it can write, a stream gives the same, and what it wrote, with a newline
after it, it parses to what it was. -/
structure JsonText.Faithful (J : JsonText) (stream : Str → Streamed) : Prop where
  parsed : ∀ t j, J.parse t = some j → j.Storable ∧ stream t = .value j
  written : ∀ step j t, j.Storable → J.dump step j = .ok t → J.parse (t ++ lit "\n") = some j

mutual
theorem Json.storable_of_plain : ∀ j : Json, j.plain = true → j.Storable
  | .null, _ | .bool _, _ | .int _, _ | .str _, _ => ⟨rfl, rfl⟩
  | .arr l, h => Json.storableList_of_plain l h
  | .obj l, h => by
    simp only [Json.plain, Bool.and_eq_true, decide_eq_true_eq] at h
    exact Json.storable_obj.2 ⟨h.2, Json.storableFields_of_plain l h.1⟩

theorem Json.storableList_of_plain : ∀ l : List Json, Json.plainList l = true → (Json.arr l).Storable
  | [], _ => ⟨rfl, rfl⟩
  | j :: l, h => by
    simp only [Json.plainList, Bool.and_eq_true] at h
    have hj := Json.storable_of_plain j h.1
    have hl := Json.storableList_of_plain l h.2
    simp only [Json.Storable, Json.ordered, Json.finite, Json.orderedList, Json.finiteList, Bool.and_eq_true] at hj hl ⊢
    exact ⟨⟨hj.1, hl.1⟩, hj.2, hl.2⟩

theorem Json.storableFields_of_plain : ∀ l : List (Str × Json), Json.plainFields l = true → ∀ a ∈ l, a.2.Storable
  | [], _ => nofun
  | (k, j) :: l, h => by
    simp only [Json.plainFields, Bool.and_eq_true] at h
    intro a ha
    rcases List.mem_cons.1 ha with rfl | ha
    · exact Json.storable_of_plain j h.1
    · exact Json.storableFields_of_plain l h.2 a ha
end

/-- A library without doubles. -/
def jsonStrict : JsonText where
  dump := jsonPlain.dump
  parse t := (jsonText.parse t).filter Json.plain

theorem jsonStrict_faithful : jsonStrict.Faithful (streamOf jsonStrict) where
  parsed t j h := by
    refine ⟨Json.storable_of_plain j (Option.filter_eq_some_iff.1 h).2, ?_⟩
    rw [streamOf, h]
  written step j t _ h := by
    simp only [jsonStrict, jsonPlain] at h ⊢
    split at h
    · next hplain =>
      rw [(jsonText_roundTrips step j t hplain h).2, Option.filter_some, if_pos hplain]
    · cases h

end McpBridge.Lib
