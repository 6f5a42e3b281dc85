import McpBridge.Lib.Bytes
/-!
# Reading a buffer

What C and C++ code does with a buffer and a length, with every access checked:
`none` is a read past the end. Lengths are of type `size_t`, so a difference
wraps around.
-/

namespace McpBridge.Lib

/-- `a - b` in 64 bits. -/
def sizeSub (a b : Nat) : Nat := (a + (18446744073709551616 - b)) % 18446744073709551616

theorem sizeSub_of_le {a b : Nat} (h : b ≤ a) (ha : a < 18446744073709551616) : sizeSub a b = a - b := by
  unfold sizeSub
  omega

namespace Buffer

/-- `buf[i]` -/
def byteAt (buf : Str) (i : Nat) : Option UInt8 := buf[i]?

/-- `for (i = start; n more times; ++i)`: whether the body holds at each index, up to the first where it does not. -/
def forEach (body : Nat → Option Bool) : Nat → Nat → Option Bool
  | _, 0 => some true
  | i, n + 1 => (body i).bind fun ok => if ok then forEach body (i + 1) n else some false

/-- `memcmp(buf + off, s, |s|) == 0` -/
def memcmpEq (buf : Str) (off : Nat) (s : Str) : Option Bool :=
  if off + s.length ≤ buf.length then some ((buf.drop off).take s.length = s) else none

/-- `buf.compare(pos, n, s) == 0`; the part compared ends with the string, and a
position past its end throws. -/
def compareEq (buf : Str) (pos n : Nat) (s : Str) : Option Bool :=
  if pos ≤ buf.length then some ((buf.drop pos).take n = s) else none

/-- `buf.find(c)`, which is `npos` where there is none. -/
def find (buf : Str) (c : UInt8) : Nat := if c ∈ buf then buf.idxOf c else 18446744073709551615

/-- A loop over bytes inside the buffer reads them all, or stops early. -/
theorem forEach_byteAt (buf : Str) (off : Nat) (p : UInt8 → Bool) (i n : Nat) (h : off + i + n ≤ buf.length) :
    forEach (fun i => (byteAt buf (off + i)).map p) i n = some (((buf.drop (off + i)).take n).all p) := by
  induction n generalizing i with
  | zero => rfl
  | succ n ih =>
    have hi : off + i < buf.length := by omega
    have hrec := ih (i + 1) (by omega)
    unfold forEach
    rw [List.drop_eq_getElem_cons hi, List.take_succ_cons, List.all_cons, byteAt, List.getElem?_eq_getElem hi, Option.map_some,
      Option.bind_some, hrec, ← Nat.add_assoc]
    split
    · next hp => rw [hp, Bool.true_and]
    · next hp => rw [Bool.eq_false_iff.2 hp, Bool.false_and]

theorem forEach_bytes {buf : Str} (p : UInt8 → Bool) {n : Nat} (h : n ≤ buf.length) :
    forEach (fun i => (byteAt buf i).map p) 0 n = some ((buf.take n).all p) := by
  have hoff := forEach_byteAt buf 0 p 0 n (by omega)
  simpa only [Nat.zero_add, List.drop_zero] using hoff

theorem byteAt_last (buf : Str) (h : 0 < buf.length) :
    ∃ x, byteAt buf (buf.length - 1) = some x ∧ buf.getLast? = some x := by
  have hx := List.getLast?_eq_some_getLast (List.ne_nil_of_length_pos h)
  refine ⟨_, ?_, hx⟩
  rw [byteAt, ← List.getLast?_eq_getElem?, hx]

theorem take_eq_iff_isPrefixOf (s t : Str) : decide (t.take s.length = s) = s.isPrefixOf t := by
  rw [Bool.eq_iff_iff, decide_eq_true_iff, List.isPrefixOf_iff_prefix, List.prefix_iff_eq_take]
  exact eq_comm

theorem memcmpEq_eq {buf : Str} {off : Nat} {s : Str} (h : off + s.length ≤ buf.length) :
    memcmpEq buf off s = some (s.isPrefixOf (buf.drop off)) := by
  unfold memcmpEq
  rw [if_pos h, take_eq_iff_isPrefixOf]

theorem compareEq_eq {buf : Str} {pos : Nat} (s : Str) (h : pos ≤ buf.length) :
    compareEq buf pos s.length s = some (s.isPrefixOf (buf.drop pos)) := by
  unfold compareEq
  rw [if_pos h, take_eq_iff_isPrefixOf]

end Buffer

end McpBridge.Lib
