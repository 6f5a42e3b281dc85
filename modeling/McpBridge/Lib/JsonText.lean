import McpBridge.Lib.Json
import Mathlib.Data.Nat.Digits.Defs
/-!
# JSON text

`JsonText` is a JSON library: a serialiser, which throws on strings that are
not UTF-8, and a parser. `JsonText.RoundTrips` says that parsing what was
serialised gives the value back, for values without doubles. `jsonText` is such
a library. Its serialiser writes what the program's library writes, compact or
indented, and its parser reads that format; `jsonText_roundTrips` is the round
trip, proven by induction on the parser's fuel.
-/

namespace McpBridge.Lib

/-- A JSON library. `dump` takes the indentation step, or `none` for the compact form. -/
structure JsonText where
  dump : Option Nat → Json → Except JsonError Str
  parse : Str → Option Json

namespace Json

mutual
/-- No doubles, and keys in order: what an object holds them in. -/
def plain : Json → Bool
  | .float _ => false
  | .arr l => plainList l
  | .obj l => plainFields l && decide (l.Pairwise fun a b => strLt a.1 b.1 = true)
  | _ => true

def plainList : List Json → Bool
  | [] => true
  | j :: l => plain j && plainList l

def plainFields : List (Str × Json) → Bool
  | [] => true
  | (_, j) :: l => plain j && plainFields l
end

end Json

/-- Parsing what `dump` wrote, with or without a newline after it, gives the value back. -/
def JsonText.RoundTrips (J : JsonText) : Prop :=
  ∀ step j t, j.plain = true → J.dump step j = .ok t → J.parse t = some j ∧ J.parse (t ++ lit "\n") = some j

/-- Serialising throws iff a string is not UTF-8. -/
def JsonText.DumpsUtf8 (J : JsonText) : Prop := ∀ step j, (∃ t, J.dump step j = .ok t) ↔ j.utf8 = true

/-- The compact form is one line. -/
def JsonText.OneLine (J : JsonText) : Prop := ∀ j t, J.dump none j = .ok t → ch '\n' ∉ t

/-! ## Numbers -/

def digitByte (d : Nat) : UInt8 := (48 + d).toUInt8

def writeNat (n : Nat) : Str := if n = 0 then [ch '0'] else (Nat.digits 10 n).reverse.map digitByte

def writeInt (n : Int) : Str := if n < 0 then ch '-' :: writeNat n.natAbs else writeNat n.natAbs

def readDigits (s : Str) : Nat := s.foldl (fun a c => 10 * a + (c.toNat - 48)) 0

/-- A number, without fraction or exponent. -/
def readInt (s : Str) : Option (Json × Str) :=
  match s with
  | [] => none
  | c :: r =>
    if c = ch '-' then
      if r.takeWhile isDigit = [] then none
      else some (.int (-(readDigits (r.takeWhile isDigit) : Int)), r.dropWhile isDigit)
    else if s.takeWhile isDigit = [] then none
    else some (.int (readDigits (s.takeWhile isDigit)), s.dropWhile isDigit)

/-- What follows a number does not continue it. -/
def NoDigit (s : Str) : Prop := ∀ c, s.head? = some c → isDigit c = false

theorem digitByte_spec : ∀ d < 10, isDigit (digitByte d) = true ∧ (digitByte d).toNat - 48 = d := by decide

theorem writeNat_digits (n : Nat) : ∀ c ∈ writeNat n, isDigit c = true := by
  unfold writeNat
  split
  · simp only [List.mem_singleton]
    rintro c rfl
    decide
  · simp only [List.mem_map, List.mem_reverse]
    rintro c ⟨d, hd, rfl⟩
    exact (digitByte_spec d (Nat.digits_lt_base (by omega) hd)).1

theorem writeNat_ne_nil (n : Nat) : writeNat n ≠ [] := by
  unfold writeNat
  split
  · simp
  · next h => simpa using Nat.digits_ne_nil_iff_ne_zero.2 h

theorem mem_writeInt {n : Int} {c : UInt8} (h : c ∈ writeInt n) : c = ch '-' ∨ isDigit c = true := by
  unfold writeInt at h
  split at h
  · rcases List.mem_cons.1 h with rfl | h
    · exact .inl rfl
    · exact .inr (writeNat_digits _ c h)
  · exact .inr (writeNat_digits _ c h)

theorem writeInt_ne_nil (n : Int) : writeInt n ≠ [] := by
  unfold writeInt
  split
  · exact List.cons_ne_nil _ _
  · exact writeNat_ne_nil _

theorem readDigits_writeNat (n : Nat) : readDigits (writeNat n) = n := by
  unfold writeNat
  split
  · next h => subst h; rfl
  · have key : ∀ l : List Nat, (∀ d ∈ l, d < 10) →
        l.foldr (fun d a => 10 * a + ((digitByte d).toNat - 48)) 0 = Nat.ofDigits 10 l := by
      intro l
      induction l with
      | nil => intro _; rfl
      | cons d l ih =>
        intro h
        simp only [List.foldr_cons, Nat.ofDigits_cons, ih fun x hx => h x (by simp [hx]),
          (digitByte_spec d (h d (by simp))).2]
        omega
    rw [readDigits, List.foldl_map, List.foldl_reverse,
      key _ fun d hd => Nat.digits_lt_base (by omega) hd, Nat.ofDigits_digits]

theorem takeWhile_digits {s r : Str} (hs : ∀ c ∈ s, isDigit c = true) (hr : NoDigit r) :
    (s ++ r).takeWhile isDigit = s ∧ (s ++ r).dropWhile isDigit = r := by
  induction s with
  | nil =>
    cases r with
    | nil => simp
    | cons c r => simp [hr c rfl]
  | cons c s ih => simpa [hs c (by simp)] using ih fun d hd => hs d (by simp [hd])

theorem readInt_writeInt (n : Int) {r : Str} (hr : NoDigit r) : readInt (writeInt n ++ r) = some (.int n, r) := by
  obtain ⟨ht, hd⟩ := takeWhile_digits (writeNat_digits n.natAbs) hr
  unfold writeInt
  split
  · next h =>
    simp only [List.cons_append, readInt, if_true, ht, hd, writeNat_ne_nil, if_false, readDigits_writeNat]
    rw [show -(n.natAbs : Int) = n by omega]
  · next h =>
    cases hw : writeNat n.natAbs with
    | nil => exact absurd hw (writeNat_ne_nil _)
    | cons c s =>
      have hc : isDigit c = true := writeNat_digits n.natAbs c (by simp [hw])
      have hne : c ≠ ch '-' := by rintro rfl; exact absurd hc (by decide)
      rw [hw] at ht hd
      simp only [List.cons_append] at ht hd
      simp only [List.cons_append, readInt, hne, if_false, ht, hd, List.cons_ne_nil]
      rw [← hw, readDigits_writeNat, show (n.natAbs : Int) = n by omega]

/-! ## Strings -/

def hexByte (d : Nat) : UInt8 := if d < 10 then digitByte d else (87 + d).toUInt8

def hexVal (c : UInt8) : Nat := if isDigit c then c.toNat - 48 else c.toNat - 87

/-- One byte of a string: control characters, quotes and backslashes are escaped. -/
def escByte (c : UInt8) : Str :=
  if c = 0x08 then lit "\\b"
  else if c = 0x09 then lit "\\t"
  else if c = 0x0a then lit "\\n"
  else if c = 0x0c then lit "\\f"
  else if c = 0x0d then lit "\\r"
  else if c = 0x22 then lit "\\\""
  else if c = 0x5c then lit "\\\\"
  else if c ≤ 0x1f then lit "\\u00" ++ [hexByte (c.toNat / 16), hexByte (c.toNat % 16)]
  else [c]

def writeStr (s : Str) : Str := ch '"' :: (s.flatMap escByte ++ [ch '"'])

/-- The escape after a backslash: the byte it stands for, and what follows. -/
def readEsc : Str → Option (UInt8 × Str)
  | [] => none
  | e :: s =>
    if e = ch 'b' then some (0x08, s)
    else if e = ch 't' then some (0x09, s)
    else if e = ch 'n' then some (0x0a, s)
    else if e = ch 'f' then some (0x0c, s)
    else if e = ch 'r' then some (0x0d, s)
    else if e = ch '"' then some (0x22, s)
    else if e = ch '\\' then some (0x5c, s)
    else if e = ch 'u' then
      match s with
      | _ :: _ :: h :: l :: s => some ((16 * hexVal h + hexVal l).toUInt8, s)
      | _ => none
    else none

/-- A string, from after its opening quote. -/
def readStr : Nat → Str → Option (Str × Str)
  | 0, _ => none
  | _ + 1, [] => none
  | n + 1, c :: s =>
    if c = ch '"' then some ([], s)
    else if c = ch '\\' then (readEsc s).bind fun p => (readStr n p.2).map fun q => (p.1 :: q.1, q.2)
    else (readStr n s).map fun q => (c :: q.1, q.2)

theorem escByte_control : ∀ c : Fin 32,
    (16 * hexVal (hexByte (c.val / 16)) + hexVal (hexByte (c.val % 16))).toUInt8 = c.val.toUInt8 := by decide

/-- Reading one escaped byte. -/
theorem readStr_escByte (c : UInt8) (n : Nat) (s : Str) :
    readStr (n + 1) (escByte c ++ s) = (readStr n s).map fun q => (c :: q.1, q.2) := by
  unfold escByte
  repeat' split
  all_goals try (subst_vars; rfl)
  · next h =>
    have hc : c.toNat < 32 := by have := UInt8.le_iff_toNat_le.1 h; simp at this; omega
    have hv := escByte_control ⟨c.toNat, hc⟩
    simp only [UInt8.ofNat_toNat, Nat.toUInt8] at hv
    have hb : ch '\\' ≠ ch '"' := by decide
    simp only [show lit "\\u00" = [ch '\\', ch 'u', ch '0', ch '0'] by decide, List.cons_append, List.nil_append,
      readStr, hb, if_false, if_true]
    rw [show ∀ h l s, readEsc (ch 'u' :: ch '0' :: ch '0' :: h :: l :: s) =
      some ((16 * hexVal h + hexVal l).toUInt8, s) from fun _ _ _ => rfl]
    simp only [Option.bind_some, Nat.toUInt8, hv]
  · next _ _ _ _ _ hq hb _ =>
    have hq' : c ≠ ch '"' := hq
    have hb' : c ≠ ch '\\' := hb
    simp [readStr, hq', hb']

theorem readStr_writeStr (s : Str) : ∀ (n : Nat) (r : Str), s.length < n →
    readStr n (s.flatMap escByte ++ ch '"' :: r) = some (s, r) := by
  induction s with
  | nil =>
    intro n r hn
    obtain ⟨n, rfl⟩ := Nat.exists_eq_succ_of_ne_zero (Nat.ne_of_gt hn)
    simp [readStr]
  | cons c s ih =>
    intro n r hn
    obtain ⟨n, rfl⟩ := Nat.exists_eq_succ_of_ne_zero (Nat.ne_of_gt (Nat.zero_lt_of_lt hn))
    rw [List.flatMap_cons, List.append_assoc, readStr_escByte, ih n r (by simpa using hn)]
    rfl

theorem length_le_escaped (s : Str) : s.length ≤ (s.flatMap escByte).length := by
  induction s with
  | nil => simp
  | cons c s ih =>
    have hc : 1 ≤ (escByte c).length := by
      unfold escByte
      repeat' split
      all_goals simp [lit]
    simp only [List.flatMap_cons, List.length_append, List.length_cons]
    omega

/-! ## Values -/

/-- A line break and its indentation; nothing in the compact form. -/
def newline (step : Option Nat) (cur : Nat) : Str :=
  match step with
  | some _ => ch '\n' :: List.replicate cur (ch ' ')
  | none => []

/-- The blank after a colon. -/
def pad (step : Option Nat) : Str := if step.isSome then [ch ' '] else []

def colon (step : Option Nat) : Str := ch ':' :: pad step

mutual
/-- The text of a value at indentation `cur`. Doubles are not written. -/
def write (step : Option Nat) (cur : Nat) : Json → Str
  | .null => lit "null"
  | .bool true => lit "true"
  | .bool false => lit "false"
  | .int n => writeInt n
  | .float _ => []
  | .str s => writeStr s
  | .arr [] => lit "[]"
  | .arr (j :: l) =>
    ch '[' :: (newline step (cur + step.getD 0) ++ (write step (cur + step.getD 0) j ++
      (writeElems step (cur + step.getD 0) l ++ (newline step cur ++ [ch ']']))))
  | .obj [] => lit "{}"
  | .obj ((k, j) :: l) =>
    ch '{' :: (newline step (cur + step.getD 0) ++ (writeStr k ++ (colon step ++ (write step (cur + step.getD 0) j ++
      (writeFields step (cur + step.getD 0) l ++ (newline step cur ++ [ch '}']))))))

/-- The elements after the first. -/
def writeElems (step : Option Nat) (cur : Nat) : List Json → Str
  | [] => []
  | j :: l => ch ',' :: (newline step cur ++ (write step cur j ++ writeElems step cur l))

/-- The fields after the first. -/
def writeFields (step : Option Nat) (cur : Nat) : List (Str × Json) → Str
  | [] => []
  | (k, j) :: l =>
    ch ',' :: (newline step cur ++ (writeStr k ++ (colon step ++ (write step cur j ++ writeFields step cur l))))
end

def isWs (c : UInt8) : Bool := c = ch ' ' || c = ch '\t' || c = ch '\n' || c = ch '\r'

def skipWs (s : Str) : Str := s.dropWhile isWs

/-- A key and the colon after it. -/
def readKey (n : Nat) (s : Str) : Option (Str × Str) :=
  match skipWs s with
  | [] => none
  | c :: s =>
    if c = ch '"' then
      (readStr n s).bind fun p =>
        match skipWs p.2 with
        | [] => none
        | d :: r => if d = ch ':' then some (p.1, r) else none
    else none

mutual
def readValue : Nat → Str → Option (Json × Str)
  | 0, _ => none
  | n + 1, s =>
    match skipWs s with
    | [] => none
    | c :: r =>
      if c = ch '"' then (readStr (n + 1) r).map fun p => (.str p.1, p.2)
      else if c = ch '[' then
        if (skipWs r).head? = some (ch ']') then some (.arr [], (skipWs r).tail)
        else (readValue n r).bind fun p => (readElems n p.2).map fun q => (.arr (p.1 :: q.1), q.2)
      else if c = ch '{' then
        if (skipWs r).head? = some (ch '}') then some (.obj [], (skipWs r).tail)
        else (readKey n r).bind fun k => (readValue n k.2).bind fun p =>
          (readFields n [(k.1, p.1)] p.2).map fun q => (.obj q.1, q.2)
      else if (lit "null").isPrefixOf (c :: r) then some (.null, (c :: r).drop 4)
      else if (lit "true").isPrefixOf (c :: r) then some (.bool true, (c :: r).drop 4)
      else if (lit "false").isPrefixOf (c :: r) then some (.bool false, (c :: r).drop 5)
      else readInt (c :: r)

def readElems : Nat → Str → Option (List Json × Str)
  | 0, _ => none
  | n + 1, s =>
    match skipWs s with
    | [] => none
    | c :: r =>
      if c = ch ',' then (readValue n r).bind fun p => (readElems n p.2).map fun q => (p.1 :: q.1, q.2)
      else if c = ch ']' then some ([], r)
      else none

/-- The fields after those in `acc`; a repeated key replaces the earlier value. -/
def readFields : Nat → List (Str × Json) → Str → Option (List (Str × Json) × Str)
  | 0, _, _ => none
  | n + 1, acc, s =>
    match skipWs s with
    | [] => none
    | c :: r =>
      if c = ch ',' then
        (readKey n r).bind fun k => (readValue n k.2).bind fun p => readFields n (Json.insertField k.1 p.1 acc) p.2
      else if c = ch '}' then some (acc, r)
      else none
end

/-- The serialiser and the parser. -/
def jsonText : JsonText where
  dump step j :=
    if j.utf8 then .ok (write step 0 j) else .error (Json.typeError (lit "316") (lit "invalid UTF-8 byte"))
  parse s := (readValue (s.length + 1) s).map (·.1)

theorem skipWs_append {ws : Str} (h : ∀ c ∈ ws, isWs c = true) (s : Str) : skipWs (ws ++ s) = skipWs s := by
  induction ws with
  | nil => rfl
  | cons c ws ih =>
    simp only [List.cons_append, skipWs, List.dropWhile_cons, h c (by simp), if_true]
    exact ih fun d hd => h d (by simp [hd])

theorem newline_ws (step : Option Nat) (cur : Nat) : ∀ c ∈ newline step cur, isWs c = true := by
  intro c hc
  cases step with
  | none => cases hc
  | some k =>
    rcases List.mem_cons.1 hc with rfl | hc
    · decide
    · rw [(List.mem_replicate.1 hc).2]; decide

theorem readValue_newline (n step cur s) : readValue n (newline step cur ++ s) = readValue n s := by
  cases n with
  | zero => rfl
  | succ n => simp only [readValue, skipWs_append (newline_ws step cur)]

theorem readKey_newline (n step cur s) : readKey n (newline step cur ++ s) = readKey n s := by
  simp only [readKey, skipWs_append (newline_ws step cur)]

/-- No value starts with a blank or a closing bracket. -/
theorem write_head (step : Option Nat) (cur : Nat) {j : Json} (h : j.plain = true) :
    ∃ c t, write step cur j = c :: t ∧ isWs c = false ∧ c ≠ ch ']' := by
  match j with
  | .null => exact ⟨_, _, rfl, by decide, by decide⟩
  | .bool true => exact ⟨_, _, rfl, by decide, by decide⟩
  | .bool false => exact ⟨_, _, rfl, by decide, by decide⟩
  | .float _ => cases h
  | .str s => exact ⟨_, _, rfl, by decide, by decide⟩
  | .arr [] => exact ⟨_, _, rfl, by decide, by decide⟩
  | .arr (_ :: _) => exact ⟨_, _, rfl, by decide, by decide⟩
  | .obj [] => exact ⟨_, _, rfl, by decide, by decide⟩
  | .obj (_ :: _) => exact ⟨_, _, rfl, by decide, by decide⟩
  | .int n =>
    simp only [write, writeInt]
    split
    · exact ⟨_, _, rfl, by decide, by decide⟩
    · cases hw : writeNat n.natAbs with
      | nil => exact absurd hw (writeNat_ne_nil _)
      | cons c s =>
        have hc : isDigit c = true := writeNat_digits n.natAbs c (by simp [hw])
        refine ⟨c, s, rfl, ?_, ?_⟩
        · by_contra hws
          simp only [isWs, Bool.not_eq_false, Bool.or_eq_true, decide_eq_true_eq] at hws
          rcases hws with ((rfl | rfl) | rfl) | rfl <;> exact absurd hc (by decide)
        · rintro rfl
          exact absurd hc (by decide)

theorem readKey_writeStr (step : Option Nat) {k : Str} {n : Nat} (r : Str) (hn : k.length < n) :
    readKey n (writeStr k ++ (colon step ++ r)) = some (k, pad step ++ r) := by
  have hq : isWs (ch '"') = false := by decide
  have hc : isWs (ch ':') = false := by decide
  have hr : readStr n (k.flatMap escByte ++ ch '"' :: (colon step ++ r)) = some (k, colon step ++ r) :=
    readStr_writeStr k n _ hn
  simp only [readKey, writeStr, List.cons_append, skipWs, List.dropWhile_cons, hq, Bool.false_eq_true, if_false,
    if_true, List.append_assoc, List.nil_append, hr, Option.bind_some]
  simp [colon, hc]

theorem readValue_pad (n step s) : readValue n (pad step ++ s) = readValue n s := by
  have h : ∀ c ∈ pad step, isWs c = true := by
    cases step
    · simp [pad]
    · simp only [pad, Option.isSome_some, if_true, List.mem_singleton, forall_eq]
      decide
  cases n with
  | zero => rfl
  | succ n => simp only [readValue, skipWs_append h]

theorem strLt_asymm : ∀ {a b : Str}, Json.strLt a b = true → a ≠ b ∧ Json.strLt b a = false
  | [], _ :: _, _ => ⟨by simp, rfl⟩
  | a :: s, b :: t, h => by
    simp only [Json.strLt] at h ⊢
    split at h
    · next hab =>
      obtain ⟨hne, hlt⟩ := strLt_asymm h
      exact ⟨by simp [hne], by simp [hab, hlt]⟩
    · next hab =>
      simp only [decide_eq_true_eq] at h
      refine ⟨by simp [hab], ?_⟩
      rw [if_neg (Ne.symm hab)]
      simpa using UInt8.le_of_lt h

/-- A key after all others goes to the end. -/
theorem insertField_last {k : Str} {j : Json} : ∀ {acc : List (Str × Json)},
    (∀ a ∈ acc, Json.strLt a.1 k = true) → Json.insertField k j acc = acc ++ [(k, j)]
  | [], _ => rfl
  | (k', j') :: acc, h => by
    obtain ⟨hne, hlt⟩ := strLt_asymm (h (k', j') (by simp))
    have ih := @insertField_last k j acc fun a ha => h a (by simp [ha])
    simp [Json.insertField, Ne.symm hne, hlt, ih]

theorem noDigit_newline (step : Option Nat) (cur : Nat) {c : UInt8} (hc : isDigit c = false) (r : Str) :
    NoDigit (newline step cur ++ c :: r) := by
  intro d hd
  cases step <;> simp only [newline, List.nil_append, List.cons_append, List.head?_cons, Option.some.injEq] at hd <;>
    subst hd
  · exact hc
  · decide

theorem noDigit_elems (step : Option Nat) (cur cur' : Nat) (l : List Json) (r : Str) :
    NoDigit (writeElems step cur l ++ (newline step cur' ++ ch ']' :: r)) := by
  cases l with
  | nil => exact noDigit_newline _ _ (by decide) _
  | cons j l => intro d hd; simp only [writeElems, List.cons_append, List.head?_cons, Option.some.injEq] at hd; subst hd; decide

theorem noDigit_fields (step : Option Nat) (cur cur' : Nat) (l : List (Str × Json)) (r : Str) :
    NoDigit (writeFields step cur l ++ (newline step cur' ++ ch '}' :: r)) := by
  cases l with
  | nil => exact noDigit_newline _ _ (by decide) _
  | cons kj l => intro d hd; simp only [writeFields, List.cons_append, List.head?_cons, Option.some.injEq] at hd; subst hd; decide

theorem skipWs_newline_close (step : Option Nat) (cur : Nat) {c : UInt8} (hc : isWs c = false) (r : Str) :
    skipWs (newline step cur ++ c :: r) = c :: r := by
  rw [skipWs_append (newline_ws step cur)]
  simp [skipWs, hc]

theorem skipWs_cons {c : UInt8} (hc : isWs c = false) (s : Str) : skipWs (c :: s) = c :: s := by
  simp [skipWs, hc]

/-- The reader stops at each character that opens or separates values. -/
theorem skipWs_punct (s : Str) :
    skipWs (ch '"' :: s) = ch '"' :: s ∧ skipWs (ch '[' :: s) = ch '[' :: s ∧
    skipWs (ch '{' :: s) = ch '{' :: s ∧ skipWs (ch ',' :: s) = ch ',' :: s :=
  ⟨skipWs_cons (by decide) s, skipWs_cons (by decide) s, skipWs_cons (by decide) s, skipWs_cons (by decide) s⟩

/-- A text that starts like a number is read as one. -/
theorem readValue_num {c : UInt8} (hc : c = ch '-' ∨ isDigit c = true) (n : Nat) (t : Str) :
    readValue (n + 1) (c :: t) = readInt (c :: t) := by
  have hne : ∀ d, d ≠ ch '-' → isDigit d = false → c ≠ d := by
    rintro d h1 h2 rfl
    rcases hc with rfl | h
    · exact h1 rfl
    · rw [h] at h2; cases h2
  have hws : isWs c = false := by
    simp only [isWs, Bool.or_eq_false_iff, decide_eq_false_iff_not]
    exact ⟨⟨⟨hne _ (by decide) (by decide), hne _ (by decide) (by decide)⟩, hne _ (by decide) (by decide)⟩,
      hne _ (by decide) (by decide)⟩
  have hpre : ∀ d, c ≠ d → ∀ m, (d :: m).isPrefixOf (c :: t) = false := by
    intro d hd m
    simp [List.isPrefixOf, Ne.symm hd]
  have hn : lit "null" = ch 'n' :: lit "ull" := by decide
  have ht : lit "true" = ch 't' :: lit "rue" := by decide
  have hf : lit "false" = ch 'f' :: lit "alse" := by decide
  simp only [readValue, skipWs_cons hws, hne (ch '"') (by decide) (by decide), hne (ch '[') (by decide) (by decide),
    hne (ch '{') (by decide) (by decide), if_false, hn, ht, hf, hpre (ch 'n') (hne _ (by decide) (by decide)),
    hpre (ch 't') (hne _ (by decide) (by decide)), hpre (ch 'f') (hne _ (by decide) (by decide)), Bool.false_eq_true]

theorem writeInt_head (m : Int) : ∃ c t, writeInt m = c :: t ∧ (c = ch '-' ∨ isDigit c = true) := by
  obtain ⟨c, t, ht⟩ := List.exists_cons_of_ne_nil (writeInt_ne_nil m)
  exact ⟨c, t, ht, mem_writeInt (ht ▸ List.mem_cons_self)⟩

theorem length_writeStr (s : Str) : s.length + 2 ≤ (writeStr s).length := by
  have := length_le_escaped s
  simp only [writeStr, List.length_cons, List.length_append, List.length_nil]
  omega

/-- An array whose first element and rest read back reads back. -/
theorem readValue_arr {n : Nat} {step : Option Nat} {cur : Nat} {j : Json} {l : List Json} {r : Str}
    (hp : j.plain = true)
    (hv : readValue n (write step (cur + step.getD 0) j ++ (writeElems step (cur + step.getD 0) l ++
      (newline step cur ++ ch ']' :: r))) =
        some (j, writeElems step (cur + step.getD 0) l ++ (newline step cur ++ ch ']' :: r)))
    (he : readElems n (writeElems step (cur + step.getD 0) l ++ (newline step cur ++ ch ']' :: r)) = some (l, r)) :
    readValue (n + 1) (write step cur (.arr (j :: l)) ++ r) = some (.arr (j :: l), r) := by
  obtain ⟨c, t, ht, hws, hne⟩ := write_head step (cur + step.getD 0) hp
  have hskip : skipWs (newline step (cur + step.getD 0) ++ (c :: t ++
      (writeElems step (cur + step.getD 0) l ++ (newline step cur ++ ch ']' :: r)))) =
      c :: t ++ (writeElems step (cur + step.getD 0) l ++ (newline step cur ++ ch ']' :: r)) := by
    rw [skipWs_append (newline_ws _ _), List.cons_append, skipWs_cons hws]
  have hb : ch '[' ≠ ch '"' := by decide
  simp only [write, List.cons_append, List.append_assoc, List.nil_append, readValue, skipWs_punct,
    hb, if_false, if_true]
  rw [ht, hskip, ← ht, readValue_newline, hv]
  simp [ht, hne, he]

/-- An object whose first value and rest read back reads back. -/
theorem readValue_obj {n : Nat} {step : Option Nat} {cur : Nat} {k : Str} {j : Json} {l : List (Str × Json)} {r : Str}
    (hk : k.length < n)
    (hv : readValue n (write step (cur + step.getD 0) j ++ (writeFields step (cur + step.getD 0) l ++
      (newline step cur ++ ch '}' :: r))) =
        some (j, writeFields step (cur + step.getD 0) l ++ (newline step cur ++ ch '}' :: r)))
    (hf : readFields n [(k, j)] (writeFields step (cur + step.getD 0) l ++ (newline step cur ++ ch '}' :: r)) =
      some ([(k, j)] ++ l, r)) :
    readValue (n + 1) (write step cur (.obj ((k, j) :: l)) ++ r) = some (.obj ((k, j) :: l), r) := by
  have hskip : ∀ x, (skipWs (newline step (cur + step.getD 0) ++ (writeStr k ++ x))).head? = some (ch '"') := by
    intro x
    rw [skipWs_append (newline_ws _ _), writeStr, List.cons_append, (skipWs_punct _).1]
    rfl
  have hb : ch '{' ≠ ch '"' ∧ ch '{' ≠ ch '[' ∧ ch '"' ≠ ch '}' := by decide
  simp only [write, List.cons_append, List.append_assoc, List.nil_append, readValue, skipWs_punct,
    hb, if_false, if_true, hskip, Option.some.injEq]
  rw [readKey_newline, readKey_writeStr step _ hk]
  simp only [Option.bind_some, readValue_pad, hv, hf, Option.map_some]
  rfl

/-- With fuel `n`, what `write` wrote reads back, for a value, the rest of an
array and the rest of an object. -/
theorem read_write (n : Nat) :
    (∀ j step cur r, j.plain = true → (write step cur j).length ≤ n → NoDigit r →
      readValue n (write step cur j ++ r) = some (j, r)) ∧
    (∀ l step cur cur' r, Json.plainList l = true → (writeElems step cur l).length < n →
      readElems n (writeElems step cur l ++ (newline step cur' ++ ch ']' :: r)) = some (l, r)) ∧
    (∀ l step cur cur' acc r, Json.plainFields l = true →
      (acc ++ l).Pairwise (fun a b => Json.strLt a.1 b.1 = true) → (writeFields step cur l).length < n →
      readFields n acc (writeFields step cur l ++ (newline step cur' ++ ch '}' :: r)) = some (acc ++ l, r)) := by
  -- On the fuel: the text of a part is shorter than that of the whole.
  induction n with
  | zero =>
    refine ⟨fun j step cur r hp hn _ => ?_, by simp, by simp⟩
    obtain ⟨c, t, ht, -⟩ := write_head step cur hp
    simp [ht] at hn
  | succ n ih =>
    obtain ⟨ihv, ihe, ihf⟩ := ih
    refine ⟨fun j step cur r hp hn hr => ?_, fun l step cur cur' r hp hn => ?_, fun l step cur cur' acc r hp hs hn => ?_⟩
    · match j with
      | .null => rfl
      | .bool true => rfl
      | .bool false => rfl
      | .float _ => cases hp
      | .int m =>
        obtain ⟨c, t, ht, hc⟩ := writeInt_head m
        have hread := readInt_writeInt m hr
        rw [write, ht, List.cons_append, readValue_num hc, ← List.cons_append, ← ht, hread]
      | .str s =>
        have hlen := length_writeStr s
        simp only [write] at hn
        have hread := readStr_writeStr s (n + 1) r (by omega)
        simp only [write, writeStr, List.cons_append, List.append_assoc, List.nil_append, readValue,
          skipWs_punct, if_true, hread, Option.map_some]
      | .arr [] => rfl
      | .arr (j :: l) =>
        simp only [Json.plain, Json.plainList, Bool.and_eq_true] at hp
        simp only [write, List.length_cons, List.length_append, List.length_nil] at hn
        exact readValue_arr hp.1
          (ihv j step (cur + step.getD 0) _ hp.1 (by omega) (noDigit_elems step (cur + step.getD 0) cur l r))
          (ihe l step (cur + step.getD 0) cur r hp.2 (by omega))
      | .obj [] => rfl
      | .obj ((k, j) :: l) =>
        simp only [Json.plain, Json.plainFields, Bool.and_eq_true, decide_eq_true_eq] at hp
        simp only [write, List.length_cons, List.length_append, List.length_nil] at hn
        have hlen := length_writeStr k
        exact readValue_obj (by omega)
          (ihv j step (cur + step.getD 0) _ hp.1.1 (by omega) (noDigit_fields step (cur + step.getD 0) cur l r))
          (ihf l step (cur + step.getD 0) cur [(k, j)] r hp.1.2 hp.2 (by omega))
    · cases l with
      | nil =>
        simp only [writeElems, List.nil_append, readElems, skipWs_newline_close step cur' (by decide : isWs (ch ']') = false)]
        rfl
      | cons j l =>
        simp only [Json.plainList, Bool.and_eq_true] at hp
        simp only [writeElems, List.length_cons, List.length_append] at hn
        have hv := ihv j step cur _ hp.1 (by omega) (noDigit_elems step cur cur' l r)
        have he := ihe l step cur cur' r hp.2 (by omega)
        simp only [writeElems, List.cons_append, List.append_assoc, readElems, skipWs_punct, if_true,
          readValue_newline, hv, Option.bind_some, he, Option.map_some]
    · cases l with
      | nil =>
        simp only [writeFields, List.nil_append, readFields, skipWs_newline_close step cur' (by decide : isWs (ch '}') = false),
          List.append_nil]
        rfl
      | cons kj l =>
        obtain ⟨k, j⟩ := kj
        simp only [Json.plainFields, Bool.and_eq_true] at hp
        simp only [writeFields, List.length_cons, List.length_append] at hn
        have hlen := length_writeStr k
        have hlast : Json.insertField k j acc = acc ++ [(k, j)] :=
          insertField_last fun a ha => (List.pairwise_append.1 hs).2.2 a ha (k, j) (by simp)
        have hv := ihv j step cur _ hp.1 (by omega) (noDigit_fields step cur cur' l r)
        have hf := ihf l step cur cur' (acc ++ [(k, j)]) r hp.2 (by simpa using hs) (by omega)
        simp only [writeFields, List.cons_append, List.append_assoc, readFields, skipWs_punct, if_true]
        rw [readKey_newline, readKey_writeStr step _ (by omega)]
        simp only [Option.bind_some, readValue_pad, hv, hlast, hf, List.append_assoc, List.singleton_append]

/-- Parsing what `jsonText` serialised gives the value back. -/
theorem jsonText_roundTrips : jsonText.RoundTrips := by
  have key : ∀ step j e, j.plain = true → NoDigit e → jsonText.parse (write step 0 j ++ e) = some j := by
    intro step j e hp hr
    simp only [jsonText]
    rw [(read_write _).1 j step 0 e hp (by simp; omega) hr]
    rfl
  intro step j t hp hd
  simp only [jsonText] at hd
  split at hd
  · cases hd
    refine ⟨?_, key step j (lit "\n") hp ?_⟩
    · have h := key step j [] hp (by simp [NoDigit])
      rwa [List.append_nil] at h
    · rintro c ⟨⟩
      decide
  · cases hd

theorem jsonText_dumpsUtf8 : jsonText.DumpsUtf8 := by
  intro step j
  by_cases h : j.utf8 = true <;> simp [jsonText, h]

/-! ## The compact form -/

theorem escByte_oneLine : ∀ c : UInt8, ch '\n' ∉ escByte c := by
  intro c
  unfold escByte
  repeat' split
  all_goals try decide
  · next h =>
    have hc : c.toNat < 32 := by have := UInt8.le_iff_toNat_le.1 h; simp at this; omega
    have hex : ∀ d < 16, ch '\n' ≠ hexByte d := by decide
    have h1 := hex (c.toNat / 16) (by omega)
    have h2 := hex (c.toNat % 16) (by omega)
    have h3 : ch '\n' ∉ lit "\\u00" := by decide
    simp [h1, h2, h3]
  · next h _ _ _ _ _ =>
    have hc : c ≠ ch '\n' := h
    simpa using hc.symm

theorem writeStr_oneLine (s : Str) : ch '\n' ∉ writeStr s := by
  have hq : ch '\n' ≠ ch '"' := by decide
  simp only [writeStr, List.mem_cons, List.mem_append, List.mem_flatMap, List.not_mem_nil, or_false, hq, false_or, not_exists,
    not_and]
  exact fun c _ => escByte_oneLine c

theorem writeInt_oneLine (n : Int) : ch '\n' ∉ writeInt n := by
  intro h
  have hc := mem_writeInt h
  revert hc
  decide

mutual
theorem write_oneLine : ∀ (cur : Nat) (j : Json), ch '\n' ∉ write none cur j
  | _, .null => by simp only [write]; decide
  | _, .bool true => by simp only [write]; decide
  | _, .bool false => by simp only [write]; decide
  | _, .int n => by simp only [write]; exact writeInt_oneLine n
  | _, .float _ => by simp [write]
  | _, .str s => by simp only [write]; exact writeStr_oneLine s
  | _, .arr [] => by simp only [write]; decide
  | cur, .arr (j :: l) => by
    have h1 : ch '\n' ≠ ch '[' := by decide
    have h2 : ch '\n' ≠ ch ']' := by decide
    simp [write, newline, h1, h2, write_oneLine cur j, writeElems_oneLine cur l]
  | _, .obj [] => by simp only [write]; decide
  | cur, .obj ((k, j) :: l) => by
    have h1 : ch '\n' ≠ ch '{' := by decide
    have h2 : ch '\n' ≠ ch '}' := by decide
    have h3 : ch '\n' ≠ ch ':' := by decide
    simp [write, newline, colon, pad, h1, h2, h3, writeStr_oneLine k, write_oneLine cur j, writeFields_oneLine cur l]

theorem writeElems_oneLine : ∀ (cur : Nat) (l : List Json), ch '\n' ∉ writeElems none cur l
  | _, [] => by simp [writeElems]
  | cur, j :: l => by
    have h1 : ch '\n' ≠ ch ',' := by decide
    simp [writeElems, newline, h1, write_oneLine cur j, writeElems_oneLine cur l]

theorem writeFields_oneLine : ∀ (cur : Nat) (l : List (Str × Json)), ch '\n' ∉ writeFields none cur l
  | _, [] => by simp [writeFields]
  | cur, (k, j) :: l => by
    have h1 : ch '\n' ≠ ch ',' := by decide
    have h3 : ch '\n' ≠ ch ':' := by decide
    simp [writeFields, newline, colon, pad, h1, h3, writeStr_oneLine k, write_oneLine cur j, writeFields_oneLine cur l]
end

theorem jsonText_oneLine : jsonText.OneLine := by
  intro j t hd
  simp only [jsonText] at hd
  split at hd
  · cases hd
    exact write_oneLine 0 j
  · cases hd

theorem length_escByte_le (c : UInt8) : (escByte c).length ≤ 6 := by
  unfold escByte
  repeat' split
  all_goals simp [lit]

theorem length_escaped_le (s : Str) : (s.flatMap escByte).length ≤ 6 * s.length := by
  induction s with
  | nil => simp
  | cons c s ih =>
    have hc := length_escByte_le c
    simp only [List.flatMap_cons, List.length_append, List.length_cons]
    omega

/-- How the library behaves: what it throws on, its compact form, that it rejects
text that is not UTF-8, and that decoding a string does not lengthen it. -/
structure JsonText.Documented (J : JsonText) : Prop where
  dumpsUtf8 : J.DumpsUtf8
  compact : ∀ j t, j.plain = true → J.dump none j = .ok t → t = write none 0 j
  parsesUtf8 : ∀ t j, J.parse t = some j → j.utf8 = true
  parsesShort : ∀ t j k s, J.parse t = some j → j.get? k = some (.str s) → s.length ≤ t.length
  errors : ∀ step j e, J.dump step j = .error e → validUtf8 e.what = true ∧ e.what.length ≤ 1000

end McpBridge.Lib
