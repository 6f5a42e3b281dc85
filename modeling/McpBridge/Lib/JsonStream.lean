import McpBridge.Lib.JsonText
/-!
# JSON from a stream

Reading a value from a file stops at the end of the value. It can throw a parse
error, or another exception (a number that is out of range).

The library writes a double that is not finite as `null`, so what is read back
agrees with what was written except at doubles (`Json.agrees`).
`JsonText.ReadsBack` says so of every value the library can hold, that is, whose
objects have their keys in order. `jsonNulls` is such a library: it writes every
double as `null`. A document that was itself read has finite doubles only; of
those `JsonText.Rereads` says more, and `JsonText.ReadsFinite` of every value
with finite doubles.
-/

namespace McpBridge.Lib

/-- What `f >> doc` does with the text of a file. -/
inductive Streamed where
  | value (j : Json)
  | parseError
  | thrown (what : Str)

/-- A stream that throws nothing but parse errors. -/
def streamOf (J : JsonText) (text : Str) : Streamed :=
  match J.parse text with
  | some j => .value j
  | none => .parseError

namespace Json

mutual
/-- The keys of every object are in order. -/
def ordered : Json → Bool
  | .arr l => orderedList l
  | .obj l => orderedFields l && decide (l.Pairwise fun a b => strLt a.1 b.1 = true)
  | _ => true

def orderedList : List Json → Bool
  | [] => true
  | j :: l => ordered j && orderedList l

def orderedFields : List (Str × Json) → Bool
  | [] => true
  | (_, j) :: l => ordered j && orderedFields l
end

mutual
/-- No double is infinite or not a number. -/
def finite : Json → Bool
  | .float bits => (bits >>> 52).toNat % 0x800 ≠ 0x7ff
  | .arr l => finiteList l
  | .obj l => finiteFields l
  | _ => true

def finiteList : List Json → Bool
  | [] => true
  | j :: l => finite j && finiteList l

def finiteFields : List (Str × Json) → Bool
  | [] => true
  | (_, j) :: l => finite j && finiteFields l
end

mutual
/-- The second value is the first one, except where that has a double. -/
def agrees : Json → Json → Prop
  | .float _, _ => True
  | .null, j => j = .null
  | .bool b, j => j = .bool b
  | .int n, j => j = .int n
  | .str s, j => j = .str s
  | .arr l, j => ∃ l', j = .arr l' ∧ agreesList l l'
  | .obj l, j => ∃ l', j = .obj l' ∧ agreesFields l l'

def agreesList : List Json → List Json → Prop
  | [], l' => l' = []
  | j :: l, l' => ∃ j' r', l' = j' :: r' ∧ agrees j j' ∧ agreesList l r'

def agreesFields : List (Str × Json) → List (Str × Json) → Prop
  | [], l' => l' = []
  | (k, j) :: l, l' => ∃ j' r', l' = (k, j') :: r' ∧ agrees j j' ∧ agreesFields l r'
end

end Json

/-- What `dump` wrote, with a newline after it, is read back from a stream. -/
def JsonText.ReadsBack (J : JsonText) (stream : Str → Streamed) : Prop :=
  ∀ step j t, j.ordered = true → J.dump step j = .ok t → ∃ j', stream (t ++ lit "\n") = .value j' ∧ j.agrees j'

/-- A value without doubles is read back as it is. -/
def JsonText.ReadsPlain (J : JsonText) (stream : Str → Streamed) : Prop :=
  ∀ step j t, j.plain = true → J.dump step j = .ok t → stream (t ++ lit "\n") = .value j

theorem JsonText.RoundTrips.readsPlain {J : JsonText} (hJ : J.RoundTrips) : J.ReadsPlain (streamOf J) := by
  intro step j t hj hd
  rw [streamOf, (hJ step j t hj hd).2]

/-- A value with finite doubles only is read back as it is: `dump` writes those exactly. -/
def JsonText.ReadsFinite (J : JsonText) (stream : Str → Streamed) : Prop :=
  ∀ step j t, j.ordered = true → j.finite = true → J.dump step j = .ok t → stream (t ++ lit "\n") = .value j

/-- A document that was read, with fields set in it. -/
inductive Json.Edited (stream : Str → Streamed) : Json → Prop
  | read {text j} (h : stream text = .value j) : Edited stream j
  | set {j j' k v} (hj : Edited stream j) (hv : v.plain = true) (h : j.set k v = .ok j') : Edited stream j'

/-- Such a document is read back as it is: its doubles are finite, and `dump` writes them exactly. -/
def JsonText.Rereads (J : JsonText) (stream : Str → Streamed) : Prop :=
  ∀ step j t, j.Edited stream → J.dump step j = .ok t → stream (t ++ lit "\n") = .value j

/-! ## Doubles as `null` -/

namespace Json

mutual
def nullDoubles : Json → Json
  | .float _ => .null
  | .arr l => .arr (nullDoublesList l)
  | .obj l => .obj (nullDoublesFields l)
  | j => j

def nullDoublesList : List Json → List Json
  | [] => []
  | j :: l => nullDoubles j :: nullDoublesList l

def nullDoublesFields : List (Str × Json) → List (Str × Json)
  | [] => []
  | (k, j) :: l => (k, nullDoubles j) :: nullDoublesFields l
end

theorem nullDoublesFields_keys (l : List (Str × Json)) : (nullDoublesFields l).map (·.1) = l.map (·.1) := by
  induction l with
  | nil => rfl
  | cons kv l ih => simp [nullDoublesFields, ih]

mutual
theorem plain_nullDoubles : ∀ j : Json, j.ordered = true → j.nullDoubles.plain = true ∧ j.agrees j.nullDoubles
  | .null, _ | .bool _, _ | .int _, _ | .float _, _ | .str _, _ => by simp [nullDoubles, plain, agrees]
  | .arr l, h => by
    simp only [ordered] at h
    obtain ⟨hp, ha⟩ := plain_nullDoublesList l h
    exact ⟨by simpa [nullDoubles, plain] using hp, _, rfl, ha⟩
  | .obj l, h => by
    simp only [ordered, Bool.and_eq_true, decide_eq_true_eq] at h
    obtain ⟨hp, ha⟩ := plain_nullDoublesFields l h.1
    have hkeys : (nullDoublesFields l).Pairwise fun a b => strLt a.1 b.1 = true := by
      have hl : (l.map (·.1)).Pairwise fun a b => strLt a b = true := List.pairwise_map.2 h.2
      rw [← nullDoublesFields_keys] at hl
      exact List.pairwise_map.1 hl
    exact ⟨by simp [nullDoubles, plain, hp, hkeys], _, rfl, ha⟩

theorem plain_nullDoublesList : ∀ l : List Json, orderedList l = true →
    plainList (nullDoublesList l) = true ∧ agreesList l (nullDoublesList l)
  | [], _ => ⟨rfl, rfl⟩
  | j :: l, h => by
    simp only [orderedList, Bool.and_eq_true] at h
    obtain ⟨hp, ha⟩ := plain_nullDoubles j h.1
    obtain ⟨hps, has⟩ := plain_nullDoublesList l h.2
    exact ⟨by simp [nullDoublesList, plainList, hp, hps], _, _, rfl, ha, has⟩

theorem plain_nullDoublesFields : ∀ l : List (Str × Json), orderedFields l = true →
    plainFields (nullDoublesFields l) = true ∧ agreesFields l (nullDoublesFields l)
  | [], _ => ⟨rfl, rfl⟩
  | (k, j) :: l, h => by
    simp only [orderedFields, Bool.and_eq_true] at h
    obtain ⟨hp, ha⟩ := plain_nullDoubles j h.1
    obtain ⟨hps, has⟩ := plain_nullDoublesFields l h.2
    exact ⟨by simp [nullDoublesFields, plainFields, hp, hps], _, _, rfl, ha, has⟩
end

end Json

/-- The library that writes every double as `null`. -/
def jsonNulls : JsonText := { jsonText with dump := fun step j => jsonText.dump step j.nullDoubles }

theorem jsonNulls_readsBack : jsonNulls.ReadsBack (streamOf jsonNulls) := by
  intro step j t hj hd
  obtain ⟨hp, ha⟩ := j.plain_nullDoubles hj
  refine ⟨j.nullDoubles, ?_, ha⟩
  have hparse : jsonNulls.parse (t ++ lit "\n") = some j.nullDoubles := (jsonText_roundTrips step _ t hp hd).2
  rw [streamOf, hparse]

/-- A library that writes no doubles. -/
def jsonPlain : JsonText where
  dump step j := if j.plain then jsonText.dump step j else .error (Json.typeError (lit "302") (lit "type must not be number"))
  parse := jsonText.parse

theorem jsonPlain_reads {step : Option Nat} {j : Json} {t : Str} (h : jsonPlain.dump step j = .ok t) :
    streamOf jsonPlain (t ++ lit "\n") = .value j := by
  simp only [jsonPlain] at h
  split at h
  · next hplain =>
    have hparse := (jsonText_roundTrips step j t hplain h).2
    simp [streamOf, jsonPlain, hparse]
  · cases h

theorem jsonPlain_rereads : jsonPlain.Rereads (streamOf jsonPlain) := fun _ _ _ _ h => jsonPlain_reads h

theorem jsonPlain_readsFinite : jsonPlain.ReadsFinite (streamOf jsonPlain) := fun _ _ _ _ _ h => jsonPlain_reads h

end McpBridge.Lib
