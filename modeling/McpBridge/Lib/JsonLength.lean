import McpBridge.Lib.JsonText
/-!
# What is read is no longer than the text

Every escape stands for fewer bytes than it is written with. So a string of a
parsed value is no longer than the text it was read from.
-/

namespace McpBridge.Lib

theorem length_skipWs (s : Str) : (skipWs s).length ≤ s.length := (List.dropWhile_sublist _).length_le

theorem readEsc_length {s r : Str} {c : UInt8} (h : readEsc s = some (c, r)) : r.length < s.length := by
  cases s with
  | nil => cases h
  | cons e s =>
    simp only [readEsc] at h
    repeat' split at h
    all_goals cases h
    all_goals
      simp only [List.length_cons]
      omega

/-- Decoding a string does not lengthen it. -/
theorem readStr_length {n : Nat} {s x r : Str} (h : readStr n s = some (x, r)) : x.length + r.length < s.length := by
  induction n generalizing s x r with
  | zero => cases h
  | succ n ih =>
    cases s with
    | nil => cases h
    | cons c s =>
      simp only [readStr] at h
      split at h
      · cases h
        simp
      split at h
      · obtain ⟨⟨e, t⟩, he, h⟩ := Option.bind_eq_some_iff.1 h
        obtain ⟨⟨y, u⟩, hy, h⟩ := Option.map_eq_some_iff.1 h
        cases h
        have hesc := readEsc_length he
        have hrest := ih hy
        simp only [List.length_cons] at *
        omega
      · obtain ⟨⟨y, u⟩, hy, h⟩ := Option.map_eq_some_iff.1 h
        cases h
        have hrest := ih hy
        simp only [List.length_cons] at *
        omega

theorem readKey_length {n : Nat} {s k r : Str} (h : readKey n s = some (k, r)) : r.length ≤ s.length := by
  have hs := length_skipWs s
  simp only [readKey] at h
  split at h
  · cases h
  next c t ht =>
  split at h
  · obtain ⟨⟨x, u⟩, hx, h⟩ := Option.bind_eq_some_iff.1 h
    have hstr := readStr_length hx
    have hu := length_skipWs u
    simp only at h
    split at h
    · cases h
    next d v hv =>
    split at h
    · cases h
      simp only [ht, hv, List.length_cons] at *
      omega
    · cases h
  · cases h

theorem readInt_length {s r : Str} {j : Json} (h : readInt s = some (j, r)) : r.length ≤ s.length ∧ ∃ n, j = .int n := by
  have hdrop : ∀ t : Str, (t.dropWhile isDigit).length ≤ t.length := fun t => (List.dropWhile_sublist _).length_le
  cases s with
  | nil => cases h
  | cons c t =>
    simp only [readInt] at h
    repeat' split at h
    all_goals cases h
    · have ht := hdrop t
      exact ⟨by rw [List.length_cons]; omega, _, rfl⟩
    · exact ⟨hdrop (c :: t), _, rfl⟩

theorem field_insertField {k k' : Str} {v w : Json} {l : List (Str × Json)} (h : Json.field? k' (Json.insertField k v l) = some w) :
    w = v ∨ Json.field? k' l = some w := by
  induction l with
  | nil =>
    simp only [Json.insertField, Json.field?] at h
    split at h
    · cases h
      exact .inl rfl
    · cases h
  | cons kv l ih =>
    obtain ⟨k₀, v₀⟩ := kv
    simp only [Json.insertField] at h
    repeat' split at h
    all_goals
      simp only [Json.field?] at h ⊢
      grind

/-- The strings of a value, at the top or in a field, have at most `n` bytes. -/
def Json.Within (n : Nat) (j : Json) : Prop :=
  (∀ x, j = .str x → x.length ≤ n) ∧ ∀ k x, j.get? k = some (.str x) → x.length ≤ n

/-- Neither a string nor an object. -/
def Json.isFlat : Json → Bool
  | .str _ | .obj _ => false
  | _ => true

theorem Json.within_of_flat {j : Json} (h : j.isFlat = true) (n : Nat) : j.Within n := by
  cases j with
  | str | obj => cases h
  | _ => exact ⟨fun x hx => (by cases hx), fun k x hx => (by cases hx)⟩

/-! ## The strings of a parsed value -/

def ValueLength (n : Nat) : Prop :=
  ∀ s j r, readValue n s = some (j, r) → r.length ≤ s.length ∧ j.Within s.length

def ElemsLength (n : Nat) : Prop := ∀ s l r, readElems n s = some (l, r) → r.length ≤ s.length

def FieldsLength (n : Nat) : Prop :=
  ∀ acc s l r, readFields n acc s = some (l, r) → r.length ≤ s.length ∧
    ∀ k x, Json.field? k l = some (.str x) → Json.field? k acc = some (.str x) ∨ x.length ≤ s.length

section
variable {n : Nat}

theorem readValue_length (ihValue : ValueLength n) (ihElems : ElemsLength n) (ihFields : FieldsLength n) : ValueLength (n + 1) := by
  intro s j r h
  have hs := length_skipWs s
  simp only [readValue] at h
  split at h
  · cases h
  next c t ht =>
  rw [ht, List.length_cons] at hs
  have htail := length_skipWs t
  split at h
  · obtain ⟨⟨y, u⟩, hy, ⟨⟩⟩ := Option.map_eq_some_iff.1 h
    have hstr := readStr_length hy
    refine ⟨by simp only; omega, ?_, fun k x hx => by cases hx⟩
    rintro x ⟨⟩
    simp only
    omega
  split at h
  · split at h
    · cases h
      refine ⟨?_, Json.within_of_flat rfl _⟩
      rw [List.length_tail]
      omega
    · obtain ⟨⟨v, u⟩, hv, h⟩ := Option.bind_eq_some_iff.1 h
      obtain ⟨⟨l, w⟩, hl, ⟨⟩⟩ := Option.map_eq_some_iff.1 h
      have hvalue := (ihValue _ _ _ hv).1
      have helems := ihElems _ _ _ hl
      refine ⟨?_, Json.within_of_flat rfl _⟩
      simp only at *
      omega
  split at h
  · split at h
    · cases h
      refine ⟨?_, fun x hx => (by cases hx), fun k x hx => (by cases hx)⟩
      rw [List.length_tail]
      omega
    · obtain ⟨⟨k₀, u₀⟩, hk, h⟩ := Option.bind_eq_some_iff.1 h
      obtain ⟨⟨v, u⟩, hv, h⟩ := Option.bind_eq_some_iff.1 h
      obtain ⟨⟨l, w⟩, hl, ⟨⟩⟩ := Option.map_eq_some_iff.1 h
      have hkey := readKey_length hk
      obtain ⟨hvalue, hstr, -⟩ := ihValue _ _ _ hv
      obtain ⟨hrest, hfields⟩ := ihFields _ _ _ _ hl
      simp only at *
      refine ⟨by omega, fun x hx => (by cases hx), fun k x hx => ?_⟩
      rcases hfields k x hx with hacc | hlen
      · simp only [Json.field?] at hacc
        split at hacc
        · have hx := hstr x (Option.some.inj hacc)
          omega
        · cases hacc
      · omega
  have hdrop : ∀ m, ((c :: t).drop m).length ≤ s.length := by
    intro m
    rw [List.length_drop, List.length_cons]
    omega
  split at h
  · cases h
    exact ⟨hdrop 4, Json.within_of_flat rfl _⟩
  split at h
  · cases h
    exact ⟨hdrop 4, Json.within_of_flat rfl _⟩
  split at h
  · cases h
    exact ⟨hdrop 5, Json.within_of_flat rfl _⟩
  · obtain ⟨hlen, m, rfl⟩ := readInt_length h
    refine ⟨?_, Json.within_of_flat rfl _⟩
    rw [List.length_cons] at hlen
    omega

theorem readElems_length (ihValue : ValueLength n) (ihElems : ElemsLength n) : ElemsLength (n + 1) := by
  intro s l r h
  have hs := length_skipWs s
  simp only [readElems] at h
  split at h
  · cases h
  next c t ht =>
  rw [ht, List.length_cons] at hs
  split at h
  · obtain ⟨⟨v, u⟩, hv, h⟩ := Option.bind_eq_some_iff.1 h
    obtain ⟨⟨l, w⟩, hl, ⟨⟩⟩ := Option.map_eq_some_iff.1 h
    have hvalue := (ihValue _ _ _ hv).1
    have helems := ihElems _ _ _ hl
    simp only at *
    omega
  split at h
  · cases h
    omega
  · cases h

theorem readFields_length (ihValue : ValueLength n) (ihFields : FieldsLength n) : FieldsLength (n + 1) := by
  intro acc s l r h
  have hs := length_skipWs s
  simp only [readFields] at h
  split at h
  · cases h
  next c t ht =>
  rw [ht, List.length_cons] at hs
  split at h
  · obtain ⟨⟨k₀, u₀⟩, hk, h⟩ := Option.bind_eq_some_iff.1 h
    obtain ⟨⟨v, u⟩, hv, h⟩ := Option.bind_eq_some_iff.1 h
    have hkey := readKey_length hk
    obtain ⟨hvalue, hstr, -⟩ := ihValue _ _ _ hv
    obtain ⟨hrest, hfields⟩ := ihFields _ _ _ _ h
    simp only at *
    refine ⟨by omega, fun k x hx => ?_⟩
    rcases hfields k x hx with hacc | hlen
    · rcases field_insertField hacc with hv | hold
      · have hx := hstr x hv.symm
        exact .inr (by omega)
      · exact .inl hold
    · exact .inr (by omega)
  split at h
  · cases h
    exact ⟨by omega, fun k x hx => .inl hx⟩
  · cases h

end

/-- Every string of a parsed value is no longer than the text. -/
theorem read_length (n : Nat) : ValueLength n ∧ ElemsLength n ∧ FieldsLength n := by
  induction n with
  | zero => simp [ValueLength, ElemsLength, FieldsLength, readValue, readElems, readFields]
  | succ n ih =>
    obtain ⟨ihValue, ihElems, ihFields⟩ := ih
    exact ⟨readValue_length ihValue ihElems ihFields, readElems_length ihValue ihElems, readFields_length ihValue ihFields⟩

/-- The serialiser and the parser, which rejects text that is not UTF-8. -/
def utf8Text : JsonText where
  dump := jsonText.dump
  parse s := (jsonText.parse s).filter Json.utf8

theorem utf8Text_documented : utf8Text.Documented where
  dumpsUtf8 := jsonText_dumpsUtf8
  compact := by
    intro j t _ hd
    simp only [utf8Text, jsonText] at hd
    split at hd
    · cases hd
      rfl
    · cases hd
  parsesUtf8 := by
    intro t j h
    exact (Option.filter_eq_some_iff.1 h).2
  parsesShort := by
    intro t j k s h hget
    obtain ⟨⟨j', r⟩, hread, rfl⟩ := Option.map_eq_some_iff.1 (Option.filter_eq_some_iff.1 h).1
    exact ((read_length _).1 _ _ _ hread).2.2 k s hget
  errors := by
    intro step j e hd
    simp only [utf8Text, jsonText] at hd
    split at hd
    · cases hd
    · cases hd
      decide +kernel

end McpBridge.Lib
