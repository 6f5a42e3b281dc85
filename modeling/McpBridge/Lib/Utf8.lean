import McpBridge.Lib.Json
import Mathlib.Data.List.Count
/-!
# Decoding with replacement

A decoder that never fails puts U+FFFD where the bytes are no character: one for
each longest part that a character could begin with. The text is kept as bytes of
UTF-8 here, so what is valid decodes to itself.
-/

namespace McpBridge.Lib.Utf8

/-- U+FFFD. -/
def replacement : Str := [0xef, 0xbf, 0xbd]

/-- The second byte may follow the first in a character of three or four bytes. -/
def second (a b : UInt8) : Bool :=
  if a = 0xe0 then 0xa0 ≤ b && b ≤ 0xbf
  else if a = 0xed then 0x80 ≤ b && b ≤ 0x9f
  else if a = 0xf0 then 0x90 ≤ b && b ≤ 0xbf
  else if a = 0xf4 then 0x80 ≤ b && b ≤ 0x8f
  else isCont b

/-- The length of the character that a text begins with. -/
def charLength : Str → Option Nat
  | [] => none
  | a :: s =>
    if a < 0x80 then some 1
    else if 0xc2 ≤ a ∧ a ≤ 0xdf then
      match s with
      | b :: _ => if isCont b then some 2 else none
      | _ => none
    else if 0xe0 ≤ a ∧ a ≤ 0xef then
      match s with
      | b :: c :: _ => if second a b && isCont c then some 3 else none
      | _ => none
    else if 0xf0 ≤ a ∧ a ≤ 0xf4 then
      match s with
      | b :: c :: d :: _ => if second a b && isCont c && isCont d then some 4 else none
      | _ => none
    else none

/-- The length of the part that is replaced where no character begins. -/
def startLength : Str → Nat
  | a :: b :: c :: _ => if 0xe0 ≤ a ∧ a ≤ 0xf4 ∧ second a b then if 0xf0 ≤ a ∧ isCont c then 3 else 2 else 1
  | [a, b] => if 0xe0 ≤ a ∧ a ≤ 0xf4 ∧ second a b then 2 else 1
  | _ => 1

def decode : Str → Str
  | [] => []
  | a :: s =>
    match charLength (a :: s) with
    | some n => a :: s.take (n - 1) ++ decode (s.drop (n - 1))
    | none => replacement ++ decode (s.drop (startLength (a :: s) - 1))
termination_by s => s.length

theorem second_ge {a b : UInt8} (h : second a b = true) : 0x80 ≤ b := by
  simp only [second, isCont] at h
  repeat' split at h
  all_goals
    simp only [Bool.and_eq_true, decide_eq_true_eq, UInt8.le_iff_toNat_le] at h ⊢
    have hlo := h.1
    simp at hlo ⊢
    omega

theorem second_three {a : UInt8} (h : 0xe0 ≤ a ∧ a ≤ 0xef) (b : UInt8) : second a b =
    (if a = 0xe0 then 0xa0 ≤ b && b ≤ 0xbf else if a = 0xed then 0x80 ≤ b && b ≤ 0x9f else isCont b) := by
  have hne : a ≠ 0xf0 ∧ a ≠ 0xf4 := by
    constructor
    all_goals
      rintro rfl
      revert h
      decide
  simp [second, hne]

theorem second_four {a : UInt8} (h : 0xf0 ≤ a ∧ a ≤ 0xf4) (b : UInt8) : second a b =
    (if a = 0xf0 then 0x90 ≤ b && b ≤ 0xbf else if a = 0xf4 then 0x80 ≤ b && b ≤ 0x8f else isCont b) := by
  have hne : a ≠ 0xe0 ∧ a ≠ 0xed := by
    constructor
    all_goals
      rintro rfl
      revert h
      decide
  simp [second, hne]

/-- A character is valid whatever follows it. -/
theorem validUtf8_charLength {a : UInt8} {s : Str} {n : Nat} (h : charLength (a :: s) = some n) (t : Str) :
    validUtf8 (a :: s.take (n - 1) ++ t) = validUtf8 t := by
  simp only [charLength] at h
  split at h
  · next ha =>
    cases h
    exact validUtf8_cons_ascii ha t
  next h1 =>
  split at h
  · next h2 =>
    rcases s with _ | ⟨b, s⟩
    · cases h
    · obtain ⟨hb, rfl⟩ : isCont b = true ∧ 2 = n := by simpa using h
      simp [validUtf8, h1, h2, hb]
  next h2 =>
  split at h
  · next h3 =>
    rcases s with _ | ⟨b, _ | ⟨c, s⟩⟩
    · cases h
    · cases h
    · obtain ⟨⟨hb, hc⟩, rfl⟩ : (second a b = true ∧ isCont c = true) ∧ 3 = n := by simpa using h
      rw [second_three h3] at hb
      simp [validUtf8, h1, h2, h3, hb, hc]
  next h3 =>
  split at h
  · next h4 =>
    rcases s with _ | ⟨b, _ | ⟨c, _ | ⟨d, s⟩⟩⟩
    · cases h
    · cases h
    · cases h
    · obtain ⟨⟨⟨hb, hc⟩, hd⟩, rfl⟩ : ((second a b = true ∧ isCont c = true) ∧ isCont d = true) ∧ 4 = n := by simpa using h
      rw [second_four h4] at hb
      simp [validUtf8, h1, h2, h3, h4, hb, hc, hd]
  · cases h

/-- A text that is valid begins with a character. -/
theorem charLength_of_valid {a : UInt8} {s : Str} (h : validUtf8 (a :: s) = true) : charLength (a :: s) ≠ none := by
  intro hnone
  simp only [charLength] at hnone
  split at hnone
  · cases hnone
  next h1 =>
  split at hnone
  · next h2 =>
    rcases s with _ | ⟨b, s⟩
    · simp [validUtf8, h1, h2] at h
    · simp only [validUtf8, h1, if_false, h2, and_self, if_true, Bool.and_eq_true] at h
      simp [h.1] at hnone
  next h2 =>
  split at hnone
  · next h3 =>
    rcases s with _ | ⟨b, _ | ⟨c, s⟩⟩
    · simp [validUtf8, h1, h2, h3] at h
    · simp [validUtf8, h1, h2, h3] at h
    · simp only [validUtf8, h1, if_false, h2, h3, and_self, if_true, ← second_three h3, Bool.and_eq_true] at h
      simp [h.1] at hnone
  next h3 =>
  split at hnone
  · next h4 =>
    rcases s with _ | ⟨b, _ | ⟨c, _ | ⟨d, s⟩⟩⟩
    · simp [validUtf8, h1, h2, h3, h4] at h
    · simp [validUtf8, h1, h2, h3, h4] at h
    · simp [validUtf8, h1, h2, h3, h4] at h
    · simp only [validUtf8, h1, if_false, h2, h3, h4, and_self, if_true, ← second_four h4, Bool.and_eq_true] at h
      dsimp only at hnone
      rw [h.1.1.1, h.1.1.2, h.1.2] at hnone
      cases hnone
  · next h4 =>
    rw [validUtf8.eq_def] at h
    simp only [h1, h2, h3, h4, if_false] at h
    cases h

/-- What is replaced has no ASCII. -/
theorem startLength_ge {a : UInt8} {s : Str} (h : charLength (a :: s) = none) :
    ∀ b ∈ a :: s.take (startLength (a :: s) - 1), 0x80 ≤ b := by
  have ha : 0x80 ≤ a := by
    by_contra hlt
    have hlt : a < 0x80 := by
      rw [UInt8.le_iff_toNat_le] at hlt
      rw [UInt8.lt_iff_toNat_lt]
      omega
    simp [charLength, hlt] at h
  have hsecond : ∀ {p q : Prop} {b : UInt8}, p ∧ q ∧ second a b = true → 0x80 ≤ b := fun hb => second_ge hb.2.2
  have hcont : ∀ {p : Prop} {c : UInt8}, p ∧ isCont c = true → 0x80 ≤ c := by
    rintro p c ⟨-, hc⟩
    simp only [isCont, Bool.and_eq_true, decide_eq_true_eq] at hc
    exact hc.1
  rcases s with _ | ⟨b, _ | ⟨c, s⟩⟩
  · simpa [startLength] using ha
  · simp only [startLength]
    split
    · next hb => simpa using ⟨ha, hsecond hb⟩
    · simpa using ha
  · simp only [startLength]
    split
    · next hb =>
      split
      · next hc => simpa using ⟨ha, hsecond hb, hcont hc⟩
      · simpa using ⟨ha, hsecond hb⟩
    · simpa using ha

/-! ## What decoding does -/

/-- What is decoded is valid. -/
theorem validUtf8_decode (s : Str) : validUtf8 (decode s) = true := by
  have hreplacement : ∀ t, validUtf8 (replacement ++ t) = validUtf8 t := by
    intro t
    simp [replacement, validUtf8, isCont]
  fun_induction decode s with
  | case1 => rfl
  | case2 a s n h ih => rwa [validUtf8_charLength h]
  | case3 a s h ih => rwa [hreplacement]

theorem decode_of_valid {s : Str} (h : validUtf8 s = true) : decode s = s := by
  fun_induction decode s with
  | case1 => rfl
  | case2 a s n hn ih =>
    have htext : a :: s = a :: s.take (n - 1) ++ s.drop (n - 1) := by rw [List.cons_append, List.take_append_drop]
    rw [htext, validUtf8_charLength hn] at h
    rw [ih h]
    exact htext.symm
  | case3 a s hn ih => exact absurd hn (charLength_of_valid h)

theorem decode_eq_self_iff (s : Str) : decode s = s ↔ validUtf8 s = true := by
  constructor
  · intro h
    rw [← h]
    exact validUtf8_decode s
  · exact decode_of_valid

/-- ASCII is decoded as it is. -/
theorem count_decode {x : UInt8} (hx : x < 0x80) (s : Str) : (decode s).count x = s.count x := by
  have hne : ∀ b : UInt8, 0x80 ≤ b → b ≠ x := by
    rintro b hb rfl
    rw [UInt8.le_iff_toNat_le] at hb
    rw [UInt8.lt_iff_toNat_lt] at hx
    omega
  fun_induction decode s with
  | case1 => rfl
  | case2 a s n h ih =>
    rw [List.count_append, ih, ← List.count_append, List.cons_append, List.take_append_drop]
  | case3 a s h ih =>
    have hhigh : ∀ b ∈ replacement, 0x80 ≤ b := by simp [replacement]
    have hkeep : replacement.count x = 0 := List.count_eq_zero_of_not_mem fun hm => hne x (hhigh x hm) rfl
    have hdrop : (a :: s.take (startLength (a :: s) - 1)).count x = 0 :=
      List.count_eq_zero_of_not_mem fun hm => hne x (startLength_ge h x hm) rfl
    have htext : a :: s = a :: s.take (startLength (a :: s) - 1) ++ s.drop (startLength (a :: s) - 1) := by
      rw [List.cons_append, List.take_append_drop]
    calc (replacement ++ decode (s.drop (startLength (a :: s) - 1))).count x
        = (s.drop (startLength (a :: s) - 1)).count x := by rw [List.count_append, hkeep, ih, Nat.zero_add]
      _ = (a :: s.take (startLength (a :: s) - 1) ++ s.drop (startLength (a :: s) - 1)).count x := by
        rw [List.count_append, hdrop, Nat.zero_add]
      _ = (a :: s).count x := by rw [← htext]

end McpBridge.Lib.Utf8
